/-
**The ring of posted messages.**

* `kernelQueueMessage` — the coalescing scans, the test for a full ring, the write.
* `postMessage`, `postQuitMessage`, `peekPostMessage`.
* `throwPosted` — the third loop of `__mg_throw_away_messages`: a scan with an inner loop that moves
  every later entry down by one.

The scans are C loops over the wrapped positions (`Lib.loop`); `none` means that the fuel ran out.
-/

import Aple.Lib.Loop
import Aple.Message.Data

namespace Aple.Message

open Aple.Lib

/-! ### kernel_QueueMessage -/

/-- Mouse moves are merged with the last entry for the same key. -/
def isMouseMoveClass (message : MsgId) : Bool :=
  message == msgMouseMove || message == msgNcMouseMove || message == msgDtMouseMove

/-- Timeouts, idle messages and caret blinks are merged with the first entry for the same key. -/
def isTimeoutClass (message : MsgId) : Bool :=
  message == msgTimeout || message == msgIdle || message == msgCaretBlink

def sameMouseKey (msg aMsg : Msg) : Bool :=
  aMsg.message == msg.message && aMsg.wParam == msg.wParam && aMsg.hwnd == msg.hwnd

def sameTimeoutKey (msg aMsg : Msg) : Bool :=
  aMsg.message == msg.message && aMsg.hwnd == msg.hwnd

/-- One turn of the first scan: `readpos` and `last_msg`. -/
def lastMatchTurn (q : MsgQueue) (msg : Msg) :
    ℕ × Option ℕ → Option ((ℕ × Option ℕ) ⊕ Option ℕ)
  | (readpos, lastMsg) =>
    if readpos = q.writepos then some (.inr lastMsg)
    else
      let lastMsg := if sameMouseKey msg (q.msg readpos) then some readpos else lastMsg
      some (.inl ((readpos + 1) % q.len, lastMsg))

/-- One turn of the second scan, which stops at the first match. -/
def firstMatchTurn (q : MsgQueue) (msg : Msg) : ℕ → Option (ℕ ⊕ Option ℕ)
  | readpos =>
    if readpos = q.writepos then some (.inr none)
    else if sameTimeoutKey msg (q.msg readpos) then some (.inr (some readpos))
    else some (.inl ((readpos + 1) % q.len))

/-- What a merged mouse move overwrites. -/
def mergeMouse (msg aMsg : Msg) : Msg := { aMsg with lParam := msg.lParam, time := msg.time }

/-- What a merged timeout overwrites. -/
def mergeTimeout (msg aMsg : Msg) : Msg :=
  { aMsg with wParam := msg.wParam, lParam := msg.lParam, time := msg.time }

/-- The label `ret`: set the flag and return `TRUE`. -/
def posted (q : MsgQueue) : Bool × MsgQueue :=
  (true, q.setFlag .postMsg)

/-- The end of the function: a full ring refuses the message, else it is written. -/
def writePosted (msg : Msg) (q : MsgQueue) : Bool × MsgQueue :=
  if (q.writepos + 1) % q.len = q.readpos then (false, q)
  else posted { q with
    msg := Function.update q.msg q.writepos msg
    writepos := (q.writepos + 1) % q.len }

/-- Post a message; `tick` is the value of `__mg_tick_counter`. -/
def kernelQueueMessage (fuel : ℕ) (tick : Dword) (msg : Msg) (q : MsgQueue) :
    Option (Bool × MsgQueue) :=
  let msg := { msg with time := tick }
  if isMouseMoveClass msg.message then
    match loop (lastMatchTurn q msg) fuel (q.readpos, none) with
    | none => none
    | some (some last) =>
      some (posted { q with msg := Function.update q.msg last (mergeMouse msg (q.msg last)) })
    | some none => some (writePosted msg q)
  else if isTimeoutClass msg.message then
    match loop (firstMatchTurn q msg) fuel q.readpos with
    | none => none
    | some (some first) =>
      some (posted { q with msg := Function.update q.msg first (mergeTimeout msg (q.msg first)) })
    | some none => some (writePosted msg q)
  else some (writePosted msg q)

/-! ### PostMessage and PostQuitMessage -/

/-- `PostMessage` once the queue of the window is found: `TRUE` stands for `ERR_OK`, `FALSE` for
`ERR_QUEUE_FULL`. The local message is not initialised, so its hidden pointer `pad` is arbitrary. -/
def postMessage (fuel : ℕ) (tick : Dword) (pad : Ptr) (hWnd : Hwnd) (nMsg : MsgId)
    (wParam : WParam) (lParam : LParam) (q : MsgQueue) : Option (Bool × MsgQueue) :=
  if nMsg = msgPaint then some (true, q.setFlag .paint)
  else kernelQueueMessage fuel tick ⟨hWnd, nMsg, wParam, lParam, 0, pad⟩ q

/-- `PostQuitMessage` once the queue of the window is found. -/
def postQuitMessage (q : MsgQueue) : MsgQueue :=
  if q.has .quit then q
  else { q.setFlag .quit with loopDepth := q.loopDepth + 1 }

/-! ### PeekPostMessage -/

/-- Peek at the ring only: the return value, `*pMsg` and the queue. -/
def peekPostMessage (nMsgFilterMin nMsgFilterMax : MsgId) (uRemoveMsg : BitVec 32)
    (q : MsgQueue) : Bool × Msg × MsgQueue :=
  if q.has .postMsg && q.readpos != q.writepos then
    let pPostMsg := q.msg q.readpos
    if nMsgFilterMin = 0 ∧ nMsgFilterMax = 0 ∨
        pPostMsg.message ≤ nMsgFilterMax ∧ pPostMsg.message ≥ nMsgFilterMin then
      let q' := if uRemoveMsg = pmRemove then q.readNext else q
      (true, { pPostMsg with pSyncMsg := none }, q')
    else (false, Msg.zero, q)
  else (false, Msg.zero, q)

/-! ### The ring in __mg_throw_away_messages -/

/-- The variables of the inner loop. -/
structure ShiftVars where
  pos : ℕ
  oldPos : ℕ
  msg : ℕ → Msg

/-- One turn of the inner loop: copy the next entry down, stop at the write position. -/
def shiftTurn (len writepos : ℕ) (v : ShiftVars) : Option (ShiftVars ⊕ (ℕ → Msg)) :=
  let pos := (v.pos + 1) % len
  if pos ≠ writepos then
    some (.inl ⟨pos, pos, Function.update v.msg v.oldPos (v.msg pos)⟩)
  else some (.inr v.msg)

/-- The variables of the outer loop. -/
structure ThrowVars where
  readpos : ℕ
  writepos : ℕ
  msg : ℕ → Msg
  nCountP : ℕ

/-- One turn of the outer loop. -/
def throwPostedTurn (fuel : ℕ) (thrown : Hwnd → Bool) (len : ℕ) (v : ThrowVars) :
    Option (ThrowVars ⊕ ThrowVars) :=
  if v.readpos = v.writepos then some (.inr v)
  else if thrown (v.msg v.readpos).hwnd then
    let marked := Function.update v.msg v.readpos { v.msg v.readpos with hwnd := hwndInvalid }
    match loop (shiftTurn len v.writepos) fuel ⟨v.readpos, v.readpos, marked⟩ with
    | none => none
    | some msg =>
      some (.inl { v with
        writepos := if 0 < v.writepos then v.writepos - 1 else len - 1
        msg := msg
        nCountP := v.nCountP + 1 })
  else some (.inl { v with readpos := (v.readpos + 1) % len })

/-- Delete the entries for a window from the ring; also the number of them. -/
def throwPosted (fuel : ℕ) (thrown : Hwnd → Bool) (q : MsgQueue) : Option (ℕ × MsgQueue) :=
  match loop (throwPostedTurn fuel thrown q.len) fuel ⟨q.readpos, q.writepos, q.msg, 0⟩ with
  | none => none
  | some v => some (v.nCountP, { q with writepos := v.writepos, msg := v.msg })

end Aple.Message
