/-
**PeekMessageEx.**

One locked pass over the sources of a queue, in the order of the source text: the quit flag, the
synchronous messages, the notifications, the posted messages, the repaint request, the desktop timer
and the expired timers.

* `Source` — where a returned message came from; `Outcome` — how a pass ends.
* `peekQuit`, `peekSync`, `peekNotify`, `peekPosted`, `peekPaint`, `peekDeskTimer`, `peekTimer` —
  one stage each. A stage either jumps out with an outcome or falls through to the next one, and
  what it wrote into `*pMsg` stays there.
* `peekPass` — the stages in order.
* `peekMessageEx` — the whole non-waiting call: a pass that ran a timer callback is followed by
  another one.
-/

import Aple.Message.Notify
import Aple.Message.Sync
import Aple.Message.Post

namespace Aple.Message

open Aple.Lib

/-! ### Arguments, environment, outcomes -/

/-- The arguments of a call. -/
structure PeekArgs where
  hWnd : Hwnd
  nMsgFilterMin : MsgId
  nMsgFilterMax : MsgId
  uRemoveMsg : BitVec 32

/-- What the function reads outside the queue: build constants, global variables and the conversion
of a mouse position to screen coordinates. -/
structure PeekEnv where
  defNrTimers : ℕ
  ksCaptured : WParam
  tickCounter : Dword
  capturedWnd : Hwnd
  hwndDesktop : Hwnd
  isDskQueue : Bool
  clientToScreen : Hwnd → LParam → LParam
  invRgn : Hwnd → LParam

/-- Where a returned message came from. -/
inductive Source
  | sync (node : Addr) | notify | posted | paint | deskTimer | timer
deriving DecidableEq, Repr

/-- How a pass ends. -/
inductive Outcome
  | quit
  | got (source : Source)
  | callTimer (slot : ℕ) (timer : Timer)
  | nothing
  | fault
deriving DecidableEq, Repr

/-- The world and `*pMsg`. -/
structure PeekState where
  world : World
  pMsg : Msg

/-- A stage falls through with `.ok` or jumps out with `.error`. -/
abbrev Stage := Except (Outcome × PeekState) PeekState

/-- The macro `IS_MSG_WANTED`. -/
def isMsgWanted (a : PeekArgs) (message : MsgId) : Bool :=
  (a.nMsgFilterMin ≤ 0 && a.nMsgFilterMax ≤ 0) ||
    (a.nMsgFilterMin > 0 && a.nMsgFilterMax ≥ a.nMsgFilterMin &&
      message ≥ a.nMsgFilterMin && message ≤ a.nMsgFilterMax)

def PeekArgs.remove (a : PeekArgs) : Bool := a.uRemoveMsg == pmRemove

/-- Replace the queue record. -/
def PeekState.setQueue (s : PeekState) (q : MsgQueue) : PeekState :=
  { s with world := { s.world with queue := q } }

/-! ### The stages -/

/-- A queue that is quitting reports `MSG_QUIT`. -/
def peekQuit (a : PeekArgs) (s : PeekState) : Stage :=
  let q := s.world.queue
  if q.has .quit then
    let pMsg := { s.pMsg with
      hwnd := a.hWnd, message := msgQuit, wParam := 0, lParam := 0, pSyncMsg := none }
    let q := if a.remove then
        let q := { q with loopDepth := q.loopDepth - 1 }
        if q.loopDepth = 0 then q.clearFlag .quit else q
      else q
    .error (.quit, { s.setQueue q with pMsg := pMsg })
  else .ok s

/-- The head of the synchronous messages is copied before the filter is tested. -/
def peekSync (a : PeekArgs) (s : PeekState) : Stage :=
  let q := s.world.queue
  if q.has .syncMsg then
    match q.pFirstSyncMsg with
    | some first =>
      let pMsg := { (s.world.frames first).msg with pSyncMsg := some first }
      if isMsgWanted a pMsg.message then
        let world := if a.remove then unlinkFirstSync first s.world else s.world
        .error (.got (.sync first), ⟨world, pMsg⟩)
      else .ok { s with pMsg := pMsg }
    | none => .ok (s.setQueue (q.clearFlag .syncMsg))
  else .ok s

/-- Unlink and release the head notification. -/
def removeFirstNotify (head : Addr) (node : QMsg) (w : World) : Option World :=
  (w.heap.free head).map fun heap => { w with
    heap := heap
    queue := { w.queue with
      pFirstNotifyMsg := node.next
      pLastNotifyMsg := if node.next = none then none else w.queue.pLastNotifyMsg } }

/-- The head notification. -/
def peekNotify (a : PeekArgs) (s : PeekState) : Stage :=
  let q := s.world.queue
  if q.has .notifyMsg then
    match q.pFirstNotifyMsg with
    | some head =>
      match s.world.heap.cells head with
      | none => .error (.fault, s)
      | some node =>
        let pMsg := { node.msg with pSyncMsg := none }
        if isMsgWanted a pMsg.message then
          if a.remove then
            match removeFirstNotify head node s.world with
            | none => .error (.fault, s)
            | some world => .error (.got .notify, ⟨world, pMsg⟩)
          else .error (.got .notify, { s with pMsg := pMsg })
        else .ok { s with pMsg := pMsg }
    | none => .ok (s.setQueue (q.clearFlag .notifyMsg))
  else .ok s

/-- `CheckCapturedMouseMessage`. -/
def checkCapturedMouseMessage (env : PeekEnv) (pMsg : Msg) : Msg :=
  if env.capturedWnd = pMsg.hwnd ∧ pMsg.message ≥ msgFirstMouseMsg ∧
      pMsg.message ≤ msgLastMouseMsg ∧ pMsg.wParam &&& env.ksCaptured = 0 then
    { pMsg with
      lParam := env.clientToScreen pMsg.hwnd pMsg.lParam
      wParam := pMsg.wParam ||| env.ksCaptured }
  else pMsg

/-- The entry at the read position of the ring. -/
def peekPosted (env : PeekEnv) (a : PeekArgs) (s : PeekState) : Stage :=
  let q := s.world.queue
  if q.has .postMsg then
    if q.readpos ≠ q.writepos then
      let pMsg := { q.msg q.readpos with pSyncMsg := none }
      if isMsgWanted a pMsg.message then
        let q := if a.remove then q.readNext else q
        .error (.got .posted, { s.setQueue q with pMsg := checkCapturedMouseMessage env pMsg })
      else .ok { s with pMsg := pMsg }
    else .ok (s.setQueue (q.clearFlag .postMsg))
  else .ok s

/-- A repaint request for the first window with an invalid region. -/
def peekPaint (env : PeekEnv) (a : PeekArgs) (s : PeekState) : Stage :=
  let q := s.world.queue
  if q.has .paint && isMsgWanted a msgPaint then
    let pMsg := { s.pMsg with message := msgPaint, wParam := 0, lParam := 0, pSyncMsg := none }
    match q.pRootMainWin with
    | none => .error (.fault, { s with pMsg := pMsg })
    | some root =>
      let hNeedPaint := msgCheckHostedTree env.hwndDesktop root
      if hNeedPaint ≠ hwndNull then
        .error (.got .paint, { s with
          pMsg := { pMsg with hwnd := hNeedPaint, lParam := env.invRgn hNeedPaint } })
      else
        .ok { s.setQueue (q.clearFlag .paint) with pMsg := pMsg }
  else .ok s

/-- The desktop timer. Neither the filter nor the hidden pointer is looked at. -/
def peekDeskTimer (env : PeekEnv) (a : PeekArgs) (s : PeekState) : Stage :=
  let q := s.world.queue
  if env.isDskQueue && q.has .deskTimer then
    let pMsg := { s.pMsg with
      hwnd := env.hwndDesktop, message := msgTimeout, wParam := 0, lParam := 0 }
    let q := if a.remove then q.clearFlag .deskTimer else q
    .error (.got .deskTimer, { s.setQueue q with pMsg := pMsg })
  else .ok s

/-- One turn of the search for an expired slot; a full circle ends with `-1`. -/
def timerSlotTurn (env : PeekEnv) (q : MsgQueue) (slot : ℕ) : Option (ℕ ⊕ Option ℕ) :=
  if q.expiredTimerMask.getLsbD slot then some (.inr (some slot))
  else
    let slot := (slot + 1) % env.defNrTimers
    if slot = q.firstTimerSlot then some (.inr none) else some (.inl slot)

/-- The first expired timer, round robin. A slot of `-1` indexes before the array. -/
def peekTimer (env : PeekEnv) (a : PeekArgs) (s : PeekState) : Stage :=
  let q := s.world.queue
  if q.expiredTimerMask ≠ 0 ∧ isMsgWanted a msgTimer then
    match loop (timerSlotTurn env q) (env.defNrTimers + 1) q.firstTimerSlot with
    | none | some none => .error (.fault, s)
    | some (some slot) =>
      let q := { q with firstTimerSlot := (q.firstTimerSlot + 1) % env.defNrTimers }
      match q.timerSlots slot with
      | none => .ok (s.setQueue q)
      | some timer =>
        let q := { q with expiredTimerMask := q.expiredTimerMask &&& ~~~BitVec.twoPow 64 slot }
        if timer.proc then .error (.callTimer slot timer, s.setQueue q)
        else
          .error (.got .timer, { s.setQueue q with
            pMsg := { s.pMsg with
              message := msgTimer
              hwnd := timer.hWnd
              wParam := timer.id
              lParam := timer.ticksFired
              pSyncMsg := none } })
  else .ok s

/-! ### A pass and a call -/

/-- All the stages; falling through the last one means that there is no message. -/
def peekStages (env : PeekEnv) (a : PeekArgs) (s : PeekState) : Stage := do
  let s ← peekQuit a s
  let s ← peekSync a s
  let s ← peekNotify a s
  let s ← peekPosted env a s
  let s ← peekPaint env a s
  let s ← peekDeskTimer env a s
  peekTimer env a s

/-- The label `got_ret`: a message for another window than the desktop resets the idle counter. -/
def gotRet (env : PeekEnv) (s : PeekState) : PeekState :=
  if s.pMsg.hwnd ≠ env.hwndDesktop then s.setQueue { s.world.queue with idleCounter := 0 } else s

/-- What follows a jump: only `got_ret` has code behind it. -/
def Outcome.land (env : PeekEnv) : Outcome → PeekState → PeekState
  | .got _, s => gotRet env s
  | _, s => s

/-- One pass from `checkagain` on. -/
def peekPass (env : PeekEnv) (a : PeekArgs) (s : PeekState) : Outcome × PeekState :=
  match peekStages env a s with
  | .ok s => (.nothing, s)
  | .error (outcome, s) => (outcome, outcome.land env s)

/-- What a timer callback does while the queue is unlocked, with the `__mg_remove_timer` that
follows when it returns `FALSE`. -/
abbrev TimerCallback := ℕ → Timer → World → World

/-- `PeekMessageEx` with `bWait` false: the return value, `*pMsg` and the world. `passes` bounds the
passes through `checkagain`; `none` means that they did not suffice, or a fault. -/
def peekLoop (env : PeekEnv) (a : PeekArgs) (callback : TimerCallback) :
    ℕ → PeekState → Option (Bool × PeekState)
  | 0, _ => none
  | passes + 1, s =>
    match peekPass env a s with
    | (.quit, s) => some (false, s)
    | (.got _, s) => some (true, s)
    | (.callTimer slot timer, s) =>
      peekLoop env a callback passes { s with world := callback slot timer s.world }
    | (.nothing, s) => some (false, s)
    | (.fault, _) => none

/-- The non-waiting call, with its test of the window argument. -/
def peekMessageEx (env : PeekEnv) (win : Windows) (a : PeekArgs) (callback : TimerCallback)
    (passes : ℕ) (pMsg : Msg) (w : World) : Option (Bool × PeekState) :=
  if a.hWnd ≠ env.hwndDesktop ∧ !isMainVirtWindow win a.hWnd then some (false, ⟨w, pMsg⟩)
  else peekLoop env a callback passes ⟨w, { Msg.zero with time := env.tickCounter }⟩

end Aple.Message
