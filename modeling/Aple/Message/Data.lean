/-
**The message queue: its records, its constants and its window tests.**

The data of `minigui-internals.h` and `minigui-window.h` that the queue functions read.

* `Msg`, `QMsg`, `SyncMsg` — a message, a heap node of the notification list, the stack frame of one
  `SendSyncMessage` call.
* `Qs` — the bits of `dwState`; `Dword.has`, `Dword.set`, `Dword.clear` and the tests of the queue
  record with their simp set (`has_setFlag`, `has_clearFlag`), so that no later proof looks at a bit
  pattern.
* `Windows` — what a window handle points to; `isThrown` is the test `__mg_throw_away_messages`
  makes on every entry, and `isThrown_eq_addressedTo` says whom it hits.
* `HostWin` — the hosting tree of a queue with its invalid regions; `msgCheckHostedTree` searches
  it.
* `MsgQueue` — the queue record, and `World` — the queue with the memory its pointers point into.
-/

import Mathlib.Data.BitVec
import Mathlib.Logic.Function.Basic

namespace Aple.Message

/-! ### Machine words -/

/-- Window handles are pointers. -/
abbrev Hwnd := BitVec 64
/-- Message identifiers and filters are unsigned 32-bit integers. -/
abbrev MsgId := BitVec 32
abbrev WParam := BitVec 64
abbrev LParam := BitVec 64
abbrev Dword := BitVec 64
abbrev LResult := Int

/-- Addresses of list nodes; the null pointer is `none`. -/
abbrev Addr := ℕ
abbrev Ptr := Option Addr

def hwndNull : Hwnd := 0
def hwndInvalid : Hwnd := -1

def msgFirstMouseMsg : MsgId := 0x0001
def msgMouseMove : MsgId := 0x0004
def msgNcMouseMove : MsgId := 0x000E
def msgLastMouseMsg : MsgId := 0x0014
def msgPaint : MsgId := 0x00B1
def msgDtMouseMove : MsgId := 0x00D4
def msgNotification : MsgId := 0x0136
def msgQuit : MsgId := 0x0140
def msgIdle : MsgId := 0x0142
def msgTimeout : MsgId := 0x0143
def msgTimer : MsgId := 0x0144
def msgCaretBlink : MsgId := 0x0145

/-- `PM_REMOVE`. -/
def pmRemove : BitVec 32 := 0x0001

def errMsgCanceled : LResult := -3

/-! ### Messages and list nodes -/

/-- The message structure, with the hidden pointer to the sender's node. -/
structure Msg where
  hwnd : Hwnd
  message : MsgId
  wParam : WParam
  lParam : LParam
  time : Dword
  pSyncMsg : Ptr
deriving DecidableEq, Repr

/-- What `memset (pMsg, 0, sizeof(MSG))` leaves. -/
def Msg.zero : Msg := ⟨0, 0, 0, 0, 0, none⟩

/-- A node of the notification list. -/
structure QMsg where
  msg : Msg
  next : Ptr
deriving DecidableEq, Repr

/-- The frame of one `SendSyncMessage` call. `semPosts` counts the posts its stack semaphore got
since `sem_init (&sync_msg, 0, 0)`. -/
structure SyncMsg where
  msg : Msg
  retval : LResult
  semPosts : ℕ
  pNext : Ptr
deriving DecidableEq, Repr

/-! ### The bits of `dwState` -/

/-- The status bits. -/
inductive Qs
  | notifyMsg | syncMsg | postMsg | quit | input | paint | deskTimer
deriving DecidableEq, Repr

/-- The values of the `QS_*` constants. -/
def Qs.mask : Qs → Dword
  | notifyMsg => 0x10000000
  | syncMsg => 0x20000000
  | postMsg => 0x40000000
  | quit => 0x80000000
  | input => 0x01000000
  | paint => 0x02000000
  | deskTimer => 0x04000000

/-- The position of the only bit of `Qs.mask`. -/
def Qs.bit : Qs → ℕ
  | notifyMsg => 28
  | syncMsg => 29
  | postMsg => 30
  | quit => 31
  | input => 24
  | paint => 25
  | deskTimer => 26

def qsEmpty : Dword := 0x00000000

namespace Dword

/-- The test `state & flag`. -/
def has (state : Dword) (flag : Qs) : Bool := state &&& flag.mask != 0

/-- The assignment `state |= flag`. -/
def set (state : Dword) (flag : Qs) : Dword := state ||| flag.mask

/-- The assignment `state &= ~flag`. -/
def clear (state : Dword) (flag : Qs) : Dword := state &&& ~~~flag.mask

theorem mask_eq (flag : Qs) : flag.mask = BitVec.twoPow 64 flag.bit := by
  cases flag <;> decide

theorem has_eq_getLsbD (state : Dword) (flag : Qs) : has state flag = state.getLsbD flag.bit := by
  have nonzero : BitVec.twoPow 64 flag.bit ≠ 0#64 := by cases flag <;> decide
  unfold has
  rw [mask_eq, BitVec.and_twoPow]
  cases bit : state.getLsbD flag.bit with
  | false => simp
  | true => simpa using nonzero

theorem bit_inj (flag flag' : Qs) : flag.bit = flag'.bit ↔ flag = flag' := by
  cases flag <;> cases flag' <;> decide

theorem bit_lt (flag : Qs) : flag.bit < 64 := by cases flag <;> decide

@[simp] theorem has_set (state : Dword) (flag flag' : Qs) :
    has (set state flag) flag' = (has state flag' || decide (flag = flag')) := by
  simp only [has_eq_getLsbD, set, mask_eq, BitVec.getLsbD_or, BitVec.getLsbD_twoPow, bit_inj,
    bit_lt, decide_true, Bool.true_and]

@[simp] theorem has_clear (state : Dword) (flag flag' : Qs) :
    has (clear state flag) flag' = (has state flag' && !decide (flag = flag')) := by
  simp only [has_eq_getLsbD, clear, mask_eq, BitVec.getLsbD_and, BitVec.getLsbD_not,
    BitVec.getLsbD_twoPow, bit_inj, bit_lt, decide_true, Bool.true_and]

@[simp] theorem has_empty (flag : Qs) : has qsEmpty flag = false := by
  cases flag <;> decide

end Dword

/-! ### Windows -/

def typeHwnd : BitVec 8 := 0x01
def typeMainWin : BitVec 8 := 0x11
def typeControl : BitVec 8 := 0x12
def typeVirtWin : BitVec 8 := 0x14

/-- The fields of a window record that the queue functions test. -/
structure Window where
  dataType : BitVec 8
  winType : BitVec 8
  pMainWin : Hwnd
deriving DecidableEq, Repr

/-- What each handle points to. -/
abbrev Windows := Hwnd → Window

/-- `MG_IS_WINDOW`. -/
def isWindow (win : Windows) (hWnd : Hwnd) : Bool :=
  hWnd != hwndNull && hWnd != hwndInvalid && (win hWnd).dataType == typeHwnd

/-- `MG_IS_MAIN_VIRT_WINDOW`. -/
def isMainVirtWindow (win : Windows) (hWnd : Hwnd) : Bool :=
  isWindow win hWnd && ((win hWnd).winType == typeMainWin || (win hWnd).winType == typeVirtWin)

/-- `MG_IS_CONTROL_WINDOW`. -/
def isControlWindow (win : Windows) (hWnd : Hwnd) : Bool :=
  isWindow win hWnd && (win hWnd).winType == typeControl

/-- The main window of a control, null for anything else. -/
def checkAndGetMainWindowIfControl (win : Windows) (hWnd : Hwnd) : Hwnd :=
  if isControlWindow win hWnd then (win hWnd).pMainWin else hwndNull

/-- The test `pMsg->hwnd == hWnd || checkAndGetMainWindowIfControl (pMsg->hwnd) == pMainWin`. -/
def isThrown (win : Windows) (hWnd hwnd : Hwnd) : Bool :=
  hwnd == hWnd || checkAndGetMainWindowIfControl win hwnd == hWnd

/-- The window itself or one of its controls. -/
def addressedTo (win : Windows) (hWnd hwnd : Hwnd) : Bool :=
  hwnd == hWnd || (isControlWindow win hwnd && (win hwnd).pMainWin == hWnd)

/-- For a handle that is not null, `isThrown` accepts the window and its controls, nothing else. -/
theorem isThrown_eq_addressedTo {win : Windows} {hWnd : Hwnd} (real : hWnd ≠ hwndNull) :
    isThrown win hWnd = addressedTo win hWnd := by
  funext hwnd
  unfold isThrown addressedTo checkAndGetMainWindowIfControl
  cases isControlWindow win hwnd with
  | false => simp [real.symm]
  | true => rfl

/-! ### The hosting tree -/

/-- A window or control with its invalid region (`InvRgn.rgn.head` not null) and its children. -/
inductive PaintWin where
  | node (hwnd : Hwnd) (winType : BitVec 8) (invRgn : Bool) (children : List PaintWin)

/-- A main or virtual window with the windows it hosts. -/
inductive HostWin where
  | node (win : PaintWin) (hosted : List HostWin)

def PaintWin.hwnd : PaintWin → Hwnd
  | node hwnd _ _ _ => hwnd

mutual

/-- `kernel_CheckInvalidRegion`. -/
def kernelCheckInvalidRegion : PaintWin → Hwnd
  | .node hwnd winType invRgn children =>
    if winType = typeVirtWin then hwndNull
    else if invRgn then hwnd
    else checkChildren children

/-- The loop over `pCtrl->children`. -/
def checkChildren : List PaintWin → Hwnd
  | [] => hwndNull
  | pCtrl :: next =>
    if kernelCheckInvalidRegion pCtrl ≠ hwndNull then kernelCheckInvalidRegion pCtrl
    else checkChildren next

end

mutual

/-- `msgCheckHostedTree`, with the handle of `__mg_dsk_win`. -/
def msgCheckHostedTree (dskWin : Hwnd) : HostWin → Hwnd
  | .node win hosted =>
    if win.hwnd ≠ dskWin ∧ kernelCheckInvalidRegion win ≠ hwndNull then kernelCheckInvalidRegion win
    else checkHosted dskWin hosted

/-- The loop over `pHosting->pFirstHosted`. -/
def checkHosted (dskWin : Hwnd) : List HostWin → Hwnd
  | [] => hwndNull
  | pHosted :: next =>
    if msgCheckHostedTree dskWin pHosted ≠ hwndNull then msgCheckHostedTree dskWin pHosted
    else checkHosted dskWin next

end

/-! ### The queue record -/

/-- The fields of a timer that the queue functions read; `proc` says whether it has a callback. -/
structure Timer where
  hWnd : Hwnd
  id : WParam
  ticksFired : LParam
  proc : Bool
deriving DecidableEq, Repr

/-- The message queue. The positions are never negative, so they are natural numbers. -/
structure MsgQueue where
  dwState : Dword
  pFirstNotifyMsg : Ptr
  pLastNotifyMsg : Ptr
  pFirstSyncMsg : Ptr
  pLastSyncMsg : Ptr
  pRootMainWin : Option HostWin
  len : ℕ
  msg : ℕ → Msg
  readpos : ℕ
  writepos : ℕ
  loopDepth : ℤ
  idleCounter : ℕ
  firstTimerSlot : ℕ
  timerSlots : ℕ → Option Timer
  expiredTimerMask : Dword

namespace MsgQueue

/-- The test `queue->dwState & flag`. -/
def has (q : MsgQueue) (flag : Qs) : Bool := Dword.has q.dwState flag

/-- The assignment `queue->dwState |= flag`. -/
def setFlag (q : MsgQueue) (flag : Qs) : MsgQueue :=
  { q with dwState := Dword.set q.dwState flag }

/-- The assignment `queue->dwState &= ~flag`. -/
def clearFlag (q : MsgQueue) (flag : Qs) : MsgQueue :=
  { q with dwState := Dword.clear q.dwState flag }

/-- The assignments `readpos++; readpos %= len`. -/
def readNext (q : MsgQueue) : MsgQueue := { q with readpos := (q.readpos + 1) % q.len }

@[simp] theorem has_setFlag (q : MsgQueue) (flag flag' : Qs) :
    (q.setFlag flag).has flag' = (q.has flag' || decide (flag = flag')) :=
  Dword.has_set q.dwState flag flag'

@[simp] theorem has_clearFlag (q : MsgQueue) (flag flag' : Qs) :
    (q.clearFlag flag).has flag' = (q.has flag' && !decide (flag = flag')) :=
  Dword.has_clear q.dwState flag flag'

@[simp] theorem has_readNext (q : MsgQueue) (flag : Qs) : q.readNext.has flag = q.has flag := rfl

end MsgQueue

/-- `mg_InitMsgQueue`: `memset` to zero, `len` slots of whatever `malloc` returned. -/
def mgInitMsgQueue (defMsgqueueLen : ℕ) (iBufferLen : ℤ) (buffer : ℕ → Msg) : MsgQueue where
  dwState := qsEmpty
  pFirstNotifyMsg := none
  pLastNotifyMsg := none
  pFirstSyncMsg := none
  pLastSyncMsg := none
  pRootMainWin := none
  len := if iBufferLen ≤ 0 then defMsgqueueLen else iBufferLen.toNat
  msg := buffer
  readpos := 0
  writepos := 0
  loopDepth := 0
  idleCounter := 0
  firstTimerSlot := 0
  timerSlots := fun _ => none
  expiredTimerMask := 0

/-! ### Memory -/

/-- The block heap of `QMSG` nodes, with the log of its allocations and releases. -/
structure QMsgHeap where
  cells : Addr → Option QMsg
  allocated : List Addr
  freed : List Addr

def QMsgHeap.empty : QMsgHeap := ⟨fun _ => none, [], []⟩

/-- `ALLOCQMSG` returning the node at `addr`, which must not be in use. -/
def QMsgHeap.alloc (heap : QMsgHeap) (addr : Addr) (node : QMsg) : Option QMsgHeap :=
  match heap.cells addr with
  | some _ => none
  | none => some { heap with
      cells := Function.update heap.cells addr (some node)
      allocated := addr :: heap.allocated }

/-- `FREEQMSG`; releasing a node that is not allocated is a fault. -/
def QMsgHeap.free (heap : QMsgHeap) (addr : Addr) : Option QMsgHeap :=
  match heap.cells addr with
  | none => none
  | some _ => some { heap with
      cells := Function.update heap.cells addr none
      freed := addr :: heap.freed }

/-- The next pointer of a heap node. -/
def QMsgHeap.next (heap : QMsgHeap) (addr : Addr) : Ptr := (heap.cells addr).bind QMsg.next

/-- The frames of the `SendSyncMessage` calls. -/
abbrev Frames := Addr → SyncMsg

/-- The next pointer of a frame. -/
def Frames.pNext (frames : Frames) (addr : Addr) : Ptr := (frames addr).pNext

/-- A queue with the memory its lists live in. -/
structure World where
  queue : MsgQueue
  heap : QMsgHeap
  frames : Frames

end Aple.Message
