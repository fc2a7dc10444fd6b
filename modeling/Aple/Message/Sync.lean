/-
**The list of synchronous messages and DispatchMessage.**

* `sendSyncMessage` — the enqueue of `SendSyncMessage`; `drainSync` — one turn of its drain loop.
* `cancelSync` — the loop that `__mg_throw_away_messages` and `EmptyMessageQueue` share: mark a
  node, unlink it, post its sender.
* `dispatchMessage` — call the window procedure, then `completeSync`: write the result into the
  sender's frame and post its semaphore.

The nodes live in the senders' frames, so reading one never faults.
-/

import Aple.Lib.Loop
import Aple.Message.Data

namespace Aple.Message

open Aple.Lib

/-- `sem_post (node->sem_handle)`. -/
def Frames.semPost (frames : Frames) (addr : Addr) : Frames :=
  Function.update frames addr { frames addr with semPosts := (frames addr).semPosts + 1 }

/-- `node->pNext = next`. -/
def Frames.setNext (frames : Frames) (addr : Addr) (next : Ptr) : Frames :=
  Function.update frames addr { frames addr with pNext := next }

/-- `node->retval = retval`. -/
def Frames.setRetval (frames : Frames) (addr : Addr) (retval : LResult) : Frames :=
  Function.update frames addr { frames addr with retval := retval }

/-- `node->Msg.hwnd = HWND_INVALID; node->retval = ERR_MSG_CANCELED`. -/
def Frames.cancel (frames : Frames) (addr : Addr) : Frames :=
  Function.update frames addr { frames addr with
    msg := { (frames addr).msg with hwnd := hwndInvalid }
    retval := errMsgCanceled }

/-! ### SendSyncMessage -/

/-- What `SendSyncMessage` writes into its frame before it takes a lock. `Msg.time` and the hidden
pointer are not written, so they are arbitrary. -/
def syncFrame (time : Dword) (pad : Ptr) (hWnd : Hwnd) (msg : MsgId) (wParam : WParam)
    (lParam : LParam) : SyncMsg :=
  ⟨⟨hWnd, msg, wParam, lParam, time, pad⟩, errMsgCanceled, 0, none⟩

/-- The enqueue of `SendSyncMessage`: link the frame at `addr` after the last node. A null tail
pointer with a list that is not empty is a fault. -/
def linkSync (addr : Addr) (w : World) : Option World :=
  let q := { w.queue.setFlag .syncMsg with pLastSyncMsg := some addr }
  if w.queue.pFirstSyncMsg = none then
    some { w with queue := { q with pFirstSyncMsg := some addr } }
  else
    match w.queue.pLastSyncMsg with
    | none => none
    | some last => some { w with queue := q, frames := w.frames.setNext last (some addr) }

/-- Fill the frame and enqueue it. -/
def sendSyncMessage (addr : Addr) (time : Dword) (pad : Ptr) (hWnd : Hwnd) (msg : MsgId)
    (wParam : WParam) (lParam : LParam) (w : World) : Option World :=
  linkSync addr { w with
    frames := Function.update w.frames addr (syncFrame time pad hWnd msg wParam lParam) }

/-- Unlink the head node `*pMsg` was copied from. -/
def unlinkFirstSync (first : Addr) (w : World) : World :=
  { w with queue := { w.queue with pFirstSyncMsg := w.frames.pNext first } }

/-- One turn of the drain loop under `QS_SYNCMSG`: the message to dispatch, or the flag cleared. -/
def drainSync (w : World) : Option Msg × World :=
  match w.queue.pFirstSyncMsg with
  | some first =>
    (some { (w.frames first).msg with pSyncMsg := some first }, unlinkFirstSync first w)
  | none => (none, { w with queue := w.queue.clearFlag .syncMsg })

/-! ### Cancelling -/

/-- The variables of the loop, with the head pointer of the queue. -/
structure SyncVars where
  pSyncMsg : Ptr
  pSyncPrev : Ptr
  pFirst : Ptr
  frames : Frames
  nCountS : ℕ

/-- One turn of the loop. `thrown` is the test on `pMsg->hwnd`. -/
def cancelSyncTurn (thrown : Hwnd → Bool) (v : SyncVars) : Option (SyncVars ⊕ SyncVars) :=
  match v.pSyncMsg with
  | none => some (.inr v)
  | some cur =>
    if thrown (v.frames cur).msg.hwnd then
      let frames := v.frames.cancel cur
      match v.pSyncPrev with
      | some prev =>
        -- no `continue` here: the unlinked node becomes the previous one
        let frames := (frames.setNext prev (frames.pNext cur)).semPost cur
        some (.inl ⟨frames.pNext cur, some cur, v.pFirst, frames, v.nCountS + 1⟩)
      | none =>
        let next := frames.pNext cur
        some (.inl ⟨next, none, next, frames.semPost cur, v.nCountS + 1⟩)
    else some (.inl { v with pSyncPrev := some cur, pSyncMsg := v.frames.pNext cur })

/-- Cancel the synchronous messages that meet `thrown`; also the number of them. The tail pointer is
not touched. -/
def cancelSync (fuel : ℕ) (thrown : Hwnd → Bool) (w : World) : Option (ℕ × World) :=
  match loop (cancelSyncTurn thrown) fuel
      ⟨w.queue.pFirstSyncMsg, none, w.queue.pFirstSyncMsg, w.frames, 0⟩ with
  | none => none
  | some v => some (v.nCountS, { w with
      frames := v.frames
      queue := { w.queue with pFirstSyncMsg := v.pFirst } })

/-! ### DispatchMessage -/

/-- Which windows have a window procedure and a notification callback. -/
structure Procs where
  hasWndProc : Hwnd → Bool
  hasNotifProc : Hwnd → Bool

/-- The value of `lRet` after the call: `result` is what the window procedure returns, and a
notification callback returns nothing. -/
def procResult (procs : Procs) (result : LResult) (pMsg : Msg) : LResult :=
  if pMsg.message = msgNotification ∧ procs.hasNotifProc pMsg.hwnd then 0 else result

/-- Write the result and post the sender when the message has a hidden pointer. -/
def completeSync (pSyncMsg : Ptr) (retval : LResult) (frames : Frames) : Frames :=
  match pSyncMsg with
  | some node => (frames.setRetval node retval).semPost node
  | none => frames

/-- `DispatchMessage`: the return value and the senders' frames. -/
def dispatchMessage (procs : Procs) (result : LResult) (pMsg : Msg) (frames : Frames) :
    LResult × Frames :=
  if pMsg.hwnd = hwndInvalid then (-1, completeSync pMsg.pSyncMsg errMsgCanceled frames)
  else if pMsg.hwnd = hwndNull then (-1, frames)
  else if !procs.hasWndProc pMsg.hwnd then (-1, frames)
  else
    let lRet := procResult procs result pMsg
    (lRet, completeSync pMsg.pSyncMsg lRet frames)

end Aple.Message
