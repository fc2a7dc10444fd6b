/-
**The notification list.**

* `sendNotifyMessage`, `notifyWindow` — append a heap node; `sendPriorNotifyMessage` — prepend one.
* `throwNotify` — the first loop of `__mg_throw_away_messages`.
* `freeNotify` — the release loop shared by `EmptyMessageQueue` and `mg_DestroyMsgQueue`.

Reading or writing a node that is not allocated, a failed `assert`, releasing a node twice and
running out of fuel all give `none`.
-/

import Aple.Lib.Loop
import Aple.Message.Data

namespace Aple.Message

open Aple.Lib

/-- Overwrite the next pointer of an allocated node. -/
def QMsgHeap.setNext (heap : QMsgHeap) (addr : Addr) (next : Ptr) : Option QMsgHeap :=
  match heap.cells addr with
  | none => none
  | some node =>
    some { heap with cells := Function.update heap.cells addr (some { node with next := next }) }

/-! ### Appending and prepending -/

/-- The common body of `SendNotifyMessage` and `NotifyWindow`: allocate `addr`, fill it, link it
after the last node. -/
def appendNotify (addr : Addr) (msg : Msg) (w : World) : Option World :=
  match w.heap.alloc addr ⟨msg, none⟩ with
  | none => none
  | some heap =>
    let q := w.queue.setFlag .notifyMsg
    if w.queue.pFirstNotifyMsg = none then
      some { w with
        heap := heap
        queue := { q with pFirstNotifyMsg := some addr, pLastNotifyMsg := some addr } }
    else
      match w.queue.pLastNotifyMsg with
      | none => none -- assert (pMsgQueue->pLastNotifyMsg)
      | some last =>
        match heap.setNext last (some addr) with
        | none => none
        | some heap =>
          some { w with heap := heap, queue := { q with pLastNotifyMsg := some addr } }

/-- `SendNotifyMessage` once the queue is found. `BlockDataAlloc` does not clear the node, so its
hidden pointer `pad` is arbitrary. -/
def sendNotifyMessage (addr : Addr) (tick : Dword) (pad : Ptr) (hWnd : Hwnd) (nMsg : MsgId)
    (wParam : WParam) (lParam : LParam) (w : World) : Option World :=
  appendNotify addr ⟨hWnd, nMsg, wParam, lParam, tick, pad⟩ w

/-- `NotifyWindow` once the queue is found. -/
def notifyWindow (addr : Addr) (pad : Ptr) (hWnd : Hwnd) (id : WParam) (code : LParam)
    (dwAddData : Dword) (w : World) : Option World :=
  appendNotify addr ⟨hWnd, msgNotification, id, code, dwAddData, pad⟩ w

/-- `SendPriorNotifyMessage` once the queue is found. -/
def sendPriorNotifyMessage (addr : Addr) (tick : Dword) (pad : Ptr) (hWnd : Hwnd) (nMsg : MsgId)
    (wParam : WParam) (lParam : LParam) (w : World) : Option World :=
  match w.heap.alloc addr ⟨⟨hWnd, nMsg, wParam, lParam, tick, pad⟩, none⟩ with
  | none => none
  | some heap =>
    let q := w.queue.setFlag .notifyMsg
    if w.queue.pFirstNotifyMsg = none then
      some { w with
        heap := heap
        queue := { q with pFirstNotifyMsg := some addr, pLastNotifyMsg := some addr } }
    else
      match heap.setNext addr w.queue.pFirstNotifyMsg with
      | none => none
      | some heap => some { w with heap := heap, queue := { q with pFirstNotifyMsg := some addr } }

/-! ### The notification list in __mg_throw_away_messages -/

/-- The variables of the loop, with the two list pointers of the queue. -/
structure NotifyVars where
  pQMsg : Ptr
  pPrev : Ptr
  pFirst : Ptr
  pLast : Ptr
  heap : QMsgHeap
  nCountN : ℕ

/-- The body of the `if`: unlink `cur`, repair the tail pointer, release the node. -/
def unlinkNotify (cur : Addr) (node : QMsg) (v : NotifyVars) : Option NotifyVars :=
  let relinked := match v.pPrev with
    | some prev => (v.heap.setNext prev node.next).map fun heap => (v.pFirst, heap)
    | none => some (node.next, v.heap)
  match relinked with
  | none => none
  | some (pFirst, heap) =>
    let pLast :=
      if v.pLast = some cur then
        match v.pPrev with
        | some prev => some prev
        | none => pFirst
      else v.pLast
    match heap.free cur with
    | none => none
    | some heap => some ⟨node.next, v.pPrev, pFirst, pLast, heap, v.nCountN + 1⟩

/-- One turn of the loop. -/
def throwNotifyTurn (thrown : Hwnd → Bool) (v : NotifyVars) :
    Option (NotifyVars ⊕ NotifyVars) :=
  match v.pQMsg with
  | none => some (.inr v)
  | some cur =>
    match v.heap.cells cur with
    | none => none
    | some node =>
      if thrown node.msg.hwnd then (unlinkNotify cur node v).map .inl
      else some (.inl { v with pPrev := some cur, pQMsg := node.next })

/-- Delete the notifications for a window; also the number of them. -/
def throwNotify (fuel : ℕ) (thrown : Hwnd → Bool) (w : World) : Option (ℕ × World) :=
  match loop (throwNotifyTurn thrown) fuel ⟨w.queue.pFirstNotifyMsg, none,
      w.queue.pFirstNotifyMsg, w.queue.pLastNotifyMsg, w.heap, 0⟩ with
  | none => none
  | some v => some (v.nCountN, { w with
      heap := v.heap
      queue := { w.queue with pFirstNotifyMsg := v.pFirst, pLastNotifyMsg := v.pLast } })

/-! ### Releasing the whole list -/

/-- One turn of the release loop: `head` and the heap. -/
def freeNotifyTurn : Ptr × QMsgHeap → Option ((Ptr × QMsgHeap) ⊕ QMsgHeap)
  | (none, heap) => some (.inr heap)
  | (some head, heap) =>
    match heap.cells head with
    | none => none
    | some node => (heap.free head).map fun heap => .inl (node.next, heap)

/-- The loop `while (head) { next = head->next; FREEQMSG (head); head = next; }`. -/
def freeNotify (fuel : ℕ) (head : Ptr) (heap : QMsgHeap) : Option QMsgHeap :=
  loop freeNotifyTurn fuel (head, heap)

/-- `mg_DestroyMsgQueue`, as far as the notification list goes. -/
def mgDestroyMsgQueue (fuel : ℕ) (w : World) : Option World :=
  (freeNotify fuel w.queue.pFirstNotifyMsg w.heap).map fun heap => { w with heap := heap }

end Aple.Message
