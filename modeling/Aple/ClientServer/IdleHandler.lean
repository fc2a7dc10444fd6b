/-
**client_IdleHandler4Client.**

* `IdleOps` — what the handler calls, with the functions of `ReplyOps` that `check_live` and
  `process_socket_message` call.
* `pollClient` — up to the timer check; `clientMouseMove` — the branch of a `select` that timed out.
* `checkTimers` — the timer check.
* `serveSocket`, `finishClient` — from the timer check to the end.
* `clientIdleHandler4Client` — one call.

`EINTR` and the constants of the message it makes are parameters. A call may end with the exit of the
process; the tick count it recorded until then is left in either case.
-/

import Aple.ClientServer.Reply
import Aple.Lib.TickMeter

namespace Aple.ClientServer

open Aple.Lib

/-- `DWORD`, as wide as a pointer. -/
abbrev Ticks (sizeT : ℕ) := BitVec (8 * sizeT)

/-- One call of an idle handler: what it leaves of the tick count and the intervals, and its value
unless the process exits. -/
abbrev IdleCall (σ : Type) (sizeT : ℕ) :=
  Bool → Meter (Ticks sizeT) → σ → Meter (Ticks sizeT) × Option (Bool × σ)

/-- `__mg_check_expired_timers (msg_queue, COUNTER - msg_queue->old_tick_count)`, and
`msg_queue->old_tick_count = COUNTER`. -/
def checkTimers {σ : Type} {sizeT : ℕ} (checkExpired : Ticks sizeT → σ → ℤ × σ)
    (counter : ℕ → Reads (Ticks sizeT)) (meter : Meter (Ticks sizeT)) (s : σ) :
    Meter (Ticks sizeT) × ℤ × σ :=
  let reads := counter meter.intervals.length
  (meter.check reads, checkExpired (reads.first - meter.last) s)

/-- The static variables of the handler. -/
structure IdleStatics (sizeT : ℕ) where
  oldTimer : Ticks sizeT
  repeatTimeout : Ticks sizeT
  oldMouseX : ℤ
  oldMouseY : ℤ
  oldButtons : ℤ
  oldMouseMoveSerial : BitVec 32

/-- `TIMEOUT_START_REPEAT`, `TIMEOUT_REPEAT` and `USEC_10MS`. -/
def timeoutStartRepeat {w : ℕ} : BitVec w := 30
def timeoutRepeat {w : ℕ} : BitVec w := 5
def usec10ms : ℕ := 10000

/-- What the server shares about the mouse. -/
structure SharedMouse where
  moveClient : ℤ
  moveSerial : BitVec 32
  x : ℤ
  y : ℤ
  shiftStatus : ℤ

/-- The file descriptor sets a handler hands to `select` and on to the check of the listened
descriptors: which of them are given. -/
structure FdSets where
  rset : Bool
  wset : Bool
  eset : Bool

/-- What the handler calls. `tryLock` is `none` when one of `OnTrylockClientReq` and
`OnUnlockClientReq` is not set, and gives zero for success; `errSys` may leave the process. -/
structure IdleOps (σ : Type) (sizeT : ℕ) extends ReplyOps σ sizeT where
  nrWfds : σ → ℕ
  nrEfds : σ → ℕ
  select : FdSets → ℕ → σ → ℤ × σ
  errno : σ → ℕ
  errSys : σ → Option σ
  statics : σ → IdleStatics sizeT
  setStatics : IdleStatics sizeT → σ → σ
  lockMouseMoveSem : σ → σ
  unlockMouseMoveSem : σ → σ
  sharedMouse : σ → SharedMouse
  queueMouseMove : (hwnd : BitVec (8 * sizeT)) → (buttons x y : ℤ) → σ → σ
  checkExpiredTimers : Ticks sizeT → σ → ℤ × σ
  connIsSet : σ → Bool
  tryLock : Option (σ → ℤ × σ)
  unlock : σ → σ
  close : σ → σ
  checkListenFds : FdSets → σ → ℤ × σ

section Client

variable {σ : Type} {sizeT : ℕ} (cfg : ClientConfig sizeT) (eintr : ℕ) (ops : IdleOps σ sizeT)

/-- How the handler gets to the timer check. -/
inductive Polled (σ : Type)
  | exits
  | interrupted (s : σ)
  | polled (n : ℤ) (s : σ)

/-- The branch of a `select` that timed out, behind its `check_live`. -/
def clientMouseMove (wait : Bool) (s : σ) : ℤ × σ :=
  let old := ops.statics s
  let s := if wait ∧ ops.tickCounter s - old.oldTimer ≥ old.repeatTimeout then
    ops.setStatics { old with oldTimer := ops.tickCounter s, repeatTimeout := timeoutRepeat } s else s
  let s := ops.lockMouseMoveSem s
  let old := ops.statics s
  let mouse := ops.sharedMouse s
  let flag := mouse.moveClient = cfg.mgClientId ∧ mouse.moveSerial ≠ old.oldMouseMoveSerial
  let old := { old with oldMouseMoveSerial := mouse.moveSerial }
  let s := ops.unlockMouseMoveSem (ops.setStatics old s)
  if flag ∧ (mouse.x ≠ old.oldMouseX ∨ mouse.y ≠ old.oldMouseY ∨ mouse.shiftStatus ≠ old.oldButtons)
  then
    let s := ops.setStatics
      { old with oldMouseX := mouse.x, oldMouseY := mouse.y, oldButtons := mouse.shiftStatus } s
    (1, ops.queueMouseMove cfg.hwndDesktop mouse.shiftStatus mouse.x mouse.y s)
  else (0, s)

/-- From the first `check_live` to the timer check, with the sets that `select` is given. -/
def pollClient (wait : Bool) (s : σ) : FdSets × Polled σ :=
  match checkLive cfg ops.toReplyOps false s with
  | none => (⟨true, false, false⟩, .exits)
  | some s =>
    let sets : FdSets := ⟨true, ops.nrWfds s != 0, ops.nrEfds s != 0⟩
    let (n, s) := ops.select sets (if wait then usec10ms else 0) s
    (sets,
      if n < 0 then
        if ops.errno s = eintr then .interrupted s
        else
          match ops.errSys s with
          | none => .exits
          | some s => .polled n s
      else if n = 0 then
        match checkLive cfg ops.toReplyOps false s with
        | none => .exits
        | some s =>
          let (n, s) := clientMouseMove cfg ops wait s
          .polled n s
      else .polled n s)

/-- The messages of the server: the socket is read when it is ready and not locked by a request. -/
def serveSocket (s : σ) : Option σ :=
  if !ops.connIsSet s then some s
  else
    let (locked, s) := match ops.tryLock with
      | some tryLock => tryLock s
      | none => (0, s)
    if locked ≠ 0 then some s
    else
      let ((nread, bytes), s) := ops.sockRead cfg.layout.size s
      let s := if ops.tryLock.isSome then ops.unlock s else s
      if nread.negative then ops.errSys s
      else if nread = .other 0 then (ops.errSys s).map ops.close
      else processSocketMessage cfg ops.toReplyOps (cfg.layout.decode bytes) s

/-- From the timer check to the end. -/
def finishClient (sets : FdSets) (n : ℤ) (s : σ) : Option (Bool × σ) := do
  let s ← serveSocket cfg ops s
  let (found, s) := ops.checkListenFds sets s
  let n := n + found
  let s ← checkLive cfg ops.toReplyOps false s
  let s := if n > 0 then ops.setStatics { ops.statics s with
    oldTimer := ops.tickCounter s, repeatTimeout := timeoutStartRepeat } s else s
  return (decide (n > 0), s)

/-- `client_IdleHandler4Client`; `counter` is what the timer checks read of
`SHAREDRES_TIMER_COUNTER`. -/
def clientIdleHandler4Client (counter : ℕ → Reads (Ticks sizeT)) : IdleCall σ sizeT :=
  fun wait meter s =>
    match pollClient cfg eintr ops wait s with
    | (_, .exits) => (meter, none)
    | (_, .interrupted s) => (meter, some (false, s))
    | (sets, .polled n s) =>
      let (meter, expired, s) := checkTimers ops.checkExpiredTimers counter meter s
      (meter, finishClient cfg ops sets (n + expired) s)

end Client

end Aple.ClientServer
