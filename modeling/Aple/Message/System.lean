/-
**The message queue as a transition system.**

* `mgThrowAwayMessages`, `emptyMessageQueue` — the two functions that work on every container of the
  queue.
* `State` — a queue with its memory and the history of a run: the frames that were enqueued, the
  messages handed to the owner and not dispatched yet, the dispatches made.
* `Event` — one locked section of one call, by any thread; `exec` runs it. A pass of `PeekMessageEx`
  is one event, so a call that runs timer callbacks is several events with others in between.
* `queueSystem` — every state that `mg_InitMsgQueue` can produce, and every event.

A frame address names one `SendSyncMessage` call, so no two calls of a run share one.
-/

import Aple.Lib.Reach
import Aple.Message.Peek

namespace Aple.Message

open Aple.Lib

/-! ### Throwing away and emptying -/

/-- The last loop of `__mg_throw_away_messages`: clear the expired bits of the window's timers. An
expired slot without a timer is a null pointer read. -/
def clearTimerFlag (thrown : Hwnd → Bool) (q : MsgQueue) (slot : ℕ) : Option MsgQueue :=
  if q.expiredTimerMask.getLsbD slot then
    match q.timerSlots slot with
    | none => none
    | some timer =>
      if thrown timer.hWnd then
        some { q with expiredTimerMask := q.expiredTimerMask &&& ~~~BitVec.twoPow 64 slot }
      else some q
  else some q

def clearTimerFlags (defNrTimers : ℕ) (thrown : Hwnd → Bool) (q : MsgQueue) : Option MsgQueue :=
  (List.range defNrTimers).foldlM (clearTimerFlag thrown) q

/-- `__mg_throw_away_messages`: the number of messages and the world. -/
def mgThrowAwayMessages (fuel defNrTimers : ℕ) (win : Windows) (hWnd : Hwnd) (w : World) :
    Option (ℕ × World) := do
  let thrown := isThrown win hWnd
  let (nCountN, w) ← throwNotify fuel thrown w
  let (nCountS, w) ← cancelSync fuel thrown w
  let (nCountP, q) ← throwPosted fuel thrown w.queue
  let q ← clearTimerFlags defNrTimers thrown q
  pure (nCountN + nCountS + nCountP, { w with queue := q })

/-- `EmptyMessageQueue`. The loop over the synchronous messages is the one of
`__mg_throw_away_messages` with every node meeting the test. -/
def emptyMessageQueue (fuel : ℕ) (w : World) : Option World := do
  let (_, w) ← cancelSync fuel (fun _ => true) w
  let heap ← freeNotify fuel w.queue.pFirstNotifyMsg w.heap
  pure { w with
    heap := heap
    queue := { w.queue with
      pFirstNotifyMsg := none
      pLastNotifyMsg := none
      readpos := 0
      writepos := 0
      dwState := qsEmpty
      expiredTimerMask := 0 } }

/-! ### States and events -/

/-- A queue with the history of a run. `held` are the messages that a removing peek or the drain
loop handed out, `dispatched` the sources of those that went through `DispatchMessage`, with the
value the procedure returned. -/
structure State where
  world : World
  enqueued : List Addr
  held : List (Source × Msg)
  dispatched : List (Source × LResult)

/-- One locked section. -/
inductive Event
  | queueMessage (fuel : ℕ) (tick : Dword) (msg : Msg)
  | post (fuel : ℕ) (tick : Dword) (pad : Ptr) (hWnd : Hwnd) (nMsg : MsgId) (wParam : WParam)
      (lParam : LParam)
  | postQuit
  | sendNotify (addr : Addr) (tick : Dword) (pad : Ptr) (hWnd : Hwnd) (nMsg : MsgId)
      (wParam : WParam) (lParam : LParam)
  | notify (addr : Addr) (pad : Ptr) (hWnd : Hwnd) (id : WParam) (code : LParam) (dwAddData : Dword)
  | sendPriorNotify (addr : Addr) (tick : Dword) (pad : Ptr) (hWnd : Hwnd) (nMsg : MsgId)
      (wParam : WParam) (lParam : LParam)
  | sendSync (addr : Addr) (win : Windows) (time : Dword) (pad : Ptr) (hWnd : Hwnd) (msg : MsgId)
      (wParam : WParam) (lParam : LParam)
  | drain
  | peek (env : PeekEnv) (args : PeekArgs) (pMsg : Msg)
  | peekPost (nMsgFilterMin nMsgFilterMax : MsgId) (uRemoveMsg : BitVec 32)
  | dispatch (index : ℕ) (procs : Procs) (result : LResult)
  | throwAway (fuel defNrTimers : ℕ) (win : Windows) (hWnd : Hwnd)
  | empty (fuel : ℕ)
  | timers (slots : ℕ → Option Timer) (mask : Dword)
  | deskTimer
  | windows (root : Option HostWin)

/-- Replace the queue record of a state. -/
def State.setQueue (s : State) (q : MsgQueue) : State :=
  { s with world := { s.world with queue := q } }

/-- Replace the world of a state. -/
def State.setWorld (s : State) (w : World) : State := { s with world := w }

/-- Record the message a removing pass handed out. -/
def State.hold (s : State) (outcome : Outcome) (remove : Bool) (pMsg : Msg) : State :=
  match outcome with
  | .got source => if remove then { s with held := s.held ++ [(source, pMsg)] } else s
  | _ => s

@[simp] theorem State.world_hold (s : State) (outcome : Outcome) (remove : Bool) (pMsg : Msg) :
    (s.hold outcome remove pMsg).world = s.world := by
  unfold hold
  split
  · split <;> rfl
  · rfl

/-- `SendSyncMessage` checks its window before it enqueues. -/
def execSendSync (s : State) (addr : Addr) (win : Windows) (time : Dword) (pad : Ptr) (hWnd : Hwnd)
    (msg : MsgId) (wParam : WParam) (lParam : LParam) : Option State :=
  if isWindow win hWnd ∧ addr ∉ s.enqueued then
    (sendSyncMessage addr time pad hWnd msg wParam lParam s.world).map fun w =>
      { s.setWorld w with enqueued := s.enqueued ++ [addr] }
  else none

/-- One turn of the drain loop; the loop ends when `QS_SYNCMSG` is clear. -/
def execDrain (s : State) : Option State :=
  if s.world.queue.has .syncMsg then
    match drainSync s.world with
    | (some pMsg, w) =>
      match pMsg.pSyncMsg with
      | some node => some { s.setWorld w with held := s.held ++ [(.sync node, pMsg)] }
      | none => none
    | (none, w) => some (s.setWorld w)
  else some s

/-- A pass of `PeekMessageEx`, which starts with whatever an earlier pass left in `*pMsg`. -/
def execPeek (s : State) (env : PeekEnv) (args : PeekArgs) (pMsg : Msg) : Option State :=
  match peekPass env args ⟨s.world, pMsg⟩ with
  | (.fault, _) => none
  | (outcome, after) => some ((s.setWorld after.world).hold outcome args.remove after.pMsg)

/-- Dispatch one of the messages handed out. -/
def execDispatch (s : State) (index : ℕ) (procs : Procs) (result : LResult) : Option State :=
  match s.held[index]? with
  | none => none
  | some (source, pMsg) =>
    some { s with
      world := { s.world with frames := (dispatchMessage procs result pMsg s.world.frames).2 }
      held := s.held.eraseIdx index
      dispatched := s.dispatched ++ [(source, procResult procs result pMsg)] }

/-- Run one event; `none` when it is not possible, faults or does not end. -/
def exec (s : State) : Event → Option State
  | .queueMessage fuel tick msg =>
    (kernelQueueMessage fuel tick msg s.world.queue).map fun r => s.setQueue r.2
  | .post fuel tick pad hWnd nMsg wParam lParam =>
    (postMessage fuel tick pad hWnd nMsg wParam lParam s.world.queue).map fun r => s.setQueue r.2
  | .postQuit => some (s.setQueue (postQuitMessage s.world.queue))
  | .sendNotify addr tick pad hWnd nMsg wParam lParam =>
    (sendNotifyMessage addr tick pad hWnd nMsg wParam lParam s.world).map s.setWorld
  | .notify addr pad hWnd id code dwAddData =>
    (notifyWindow addr pad hWnd id code dwAddData s.world).map s.setWorld
  | .sendPriorNotify addr tick pad hWnd nMsg wParam lParam =>
    (sendPriorNotifyMessage addr tick pad hWnd nMsg wParam lParam s.world).map s.setWorld
  | .sendSync addr win time pad hWnd msg wParam lParam =>
    execSendSync s addr win time pad hWnd msg wParam lParam
  | .drain => execDrain s
  | .peek env args pMsg => execPeek s env args pMsg
  | .peekPost nMsgFilterMin nMsgFilterMax uRemoveMsg =>
    some (s.setQueue (peekPostMessage nMsgFilterMin nMsgFilterMax uRemoveMsg s.world.queue).2.2)
  | .dispatch index procs result => execDispatch s index procs result
  | .throwAway fuel defNrTimers win hWnd =>
    if hWnd ≠ hwndNull then
      (mgThrowAwayMessages fuel defNrTimers win hWnd s.world).map fun r => s.setWorld r.2
    else none
  | .empty fuel => (emptyMessageQueue fuel s.world).map s.setWorld
  | .timers slots mask =>
    some (s.setQueue { s.world.queue with timerSlots := slots, expiredTimerMask := mask })
  | .deskTimer =>
    some (s.setQueue (s.world.queue.setFlag .deskTimer))
  | .windows root => some (s.setQueue { s.world.queue with pRootMainWin := root })

/-- A freshly initialised queue; the ring buffer and the stacks hold whatever they held before. -/
def State.initial (defMsgqueueLen : ℕ) (iBufferLen : ℤ) (buffer : ℕ → Msg) (frames : Frames) :
    State where
  world := ⟨mgInitMsgQueue defMsgqueueLen iBufferLen buffer, QMsgHeap.empty, frames⟩
  enqueued := []
  held := []
  dispatched := []

/-- Every run of the queue, from every state that `mg_InitMsgQueue` can produce. -/
def queueSystem : System State Event where
  init s := ∃ defMsgqueueLen iBufferLen buffer frames, 0 < defMsgqueueLen ∧
    s = State.initial defMsgqueueLen iBufferLen buffer frames
  step s event after := exec s event = some after

/-- Run a list of events. -/
abbrev State.run (s : State) (events : List Event) : Option State := runEvents exec s events

/-- Running events stays within the reachable states. -/
theorem reachable_of_run {events : List Event} {s after : State} (reached : queueSystem.Reachable s)
    (runs : s.run events = some after) : queueSystem.Reachable after :=
  reached.run (fun _ _ _ ran => ⟨trivial, ran⟩) runs

/-- A queue of four slots over zeroed memory. -/
def State.blank : State :=
  State.initial 4 0 (fun _ => Msg.zero) (fun _ => ⟨Msg.zero, 0, 0, none⟩)

theorem blank_init : queueSystem.init State.blank := ⟨4, 0, _, _, by decide, rfl⟩

theorem blank_reachable : queueSystem.Reachable State.blank := .start blank_init

end Aple.Message
