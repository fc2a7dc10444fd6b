/-
**Replies: the receiving half of ClientRequestEx2 and ServerSendReplyEx.**

* `Msg`, `MsgLayout` — a message, and its bytes on the socket.
* `ReplyOps` — what the client calls, with the functions of `ClientOps` that write.
* `processSocketMessage`, `checkLive` — the handling of a message that is no reply; a wake-up sends
  a request without a reply from inside the one that waits.
* `clientRequestEx2` — the whole function; the loop that waits for the marker has fuel.
* `serverSendReplyEx` — the marker, and the reply behind it.

`HWND_INVALID`, `HWND_NULL`, `HWND_DESKTOP`, the message numbers, `REQMASK_JOINLAYERFIRST` and
`REQID_IAMLIVE` are parameters, and so is the layout of `MSG`.
-/

import Aple.ClientServer.Request
import Aple.Lib.Loop

namespace Aple.ClientServer

open Aple.Lib

/-! ### Messages -/

/-- `MSG`; handles, parameters and ticks are as wide as a pointer. -/
structure Msg (sizeT : ℕ) where
  hwnd : BitVec (8 * sizeT)
  message : BitVec 32
  wParam : BitVec (8 * sizeT)
  lParam : BitVec (8 * sizeT)
  time : BitVec (8 * sizeT)
deriving DecidableEq, Repr

/-- The bytes of a `MSG`: as many for every message, and the message can be read back from them. -/
structure MsgLayout (sizeT : ℕ) where
  size : ℕ
  encode : Msg sizeT → List Byte
  decode : List Byte → Msg sizeT
  size_pos : 0 < size
  length_encode : ∀ msg, (encode msg).length = size
  decode_encode : ∀ msg, decode (encode msg) = msg

/-- `LOSWORD` and `HISWORD`. -/
def losword {w : ℕ} (value : BitVec w) : ℤ := (value.setWidth 16).toInt
def hisword {w : ℕ} (value : BitVec w) : ℤ := ((value >>> 16).setWidth 16).toInt

/-! ### The client -/

/-- The constants, and the globals that a request does not change. -/
structure ClientConfig (sizeT : ℕ) where
  layout : MsgLayout sizeT
  mgIsServer : Bool
  mgClientId : ℤ
  reqmaskJoinlayerfirst : BitVec 32
  reqidIamlive : BitVec 32
  hwndInvalid : BitVec (8 * sizeT)
  hwndNull : BitVec (8 * sizeT)
  hwndDesktop : BitVec (8 * sizeT)
  msgWakeupClient : BitVec 32
  msgUpdatecliwin : BitVec 32

/-- What `ClientRequestEx2` and `process_socket_message` call. `onLock` and `onUnlock` do nothing
when the callbacks are not set; `sockRecvmsg` gives the descriptor and the bytes; `lastTicks` is the
static variable of `check_live`. -/
structure ReplyOps (σ : Type) (sizeT : ℕ) extends ClientOps σ where
  sockRead : ℕ → σ → (Code × List Byte) × σ
  sockRecvmsg : ℕ → σ → (Code × Option Fd × List Byte) × σ
  onLock : σ → σ
  onUnlock : σ → σ
  updateTickCount : σ → σ
  tickCounter : σ → BitVec (8 * sizeT)
  lastTicks : σ → BitVec (8 * sizeT)
  setLastTicks : BitVec (8 * sizeT) → σ → σ
  checkHwnd : BitVec (8 * sizeT) → σ → Bool
  updateWindow : BitVec (8 * sizeT) → ℤ → ℤ → ℤ → ℤ → σ → σ
  queueDeskMessage : Msg sizeT → σ → σ

/-- What was received for `result` and `fd_received`. -/
structure Reply where
  result : List Byte
  fdReceived : Option Fd
deriving DecidableEq, Repr

/-- The end of `ClientRequestEx2`: the client exits, or the result is -1 or 0. -/
inductive ClientResult (σ : Type)
  | exits
  | fails (s : σ)
  | ok (reply : Option Reply) (s : σ)
deriving Repr

section Client

variable {σ : Type} {sizeT : ℕ} (cfg : ClientConfig sizeT) (ops : ReplyOps σ sizeT)

/-- `sock_error`. -/
def sockError (n : Code) (s : σ) : ClientResult σ :=
  match n with
  | .io => .fails (ops.onUnlock s)
  | .closed => .exits
  | _ => .fails s

/-- `ClientRequestEx2` up to the test for a result. -/
def requestHead (request : Request) (s : σ) : ClientResult σ :=
  if cfg.mgIsServer then .fails s
  else if cfg.mgClientId = 0 ∧ request.id &&& cfg.reqmaskJoinlayerfirst ≠ 0 then .exits
  else
    let (n, s) := sendRequest ops.toClientOps sizeT request (ops.onLock s)
    if n.negative then sockError ops n s else .ok none s

/-- `ClientRequest (request, NULL, 0)`. -/
def clientRequestNoReply (request : Request) (s : σ) : ClientResult σ :=
  match requestHead cfg ops request s with
  | .ok _ s => .ok none (ops.onUnlock s)
  | other => other

/-- `check_live`; `none` when the client exits. -/
def checkLive (woken : Bool) (s : σ) : Option σ :=
  let s := ops.updateTickCount s
  if woken ∨ ops.tickCounter s > ops.lastTicks s + 100 then
    let ticks := ops.tickCounter s
    match clientRequestNoReply cfg ops ⟨cfg.reqidIamlive, toBytes 4 ticks.toNat, [], -1⟩
        (ops.setLastTicks ticks s) with
    | .exits => none
    | .fails s => some s
    | .ok _ s => some s
  else some s

/-- `process_socket_message`; `none` when the client exits. -/
def processSocketMessage (msg : Msg sizeT) (s : σ) : Option σ :=
  if msg.message = cfg.msgWakeupClient then checkLive cfg ops true s
  else if msg.message = cfg.msgUpdatecliwin ∧ ops.checkHwnd msg.hwnd s then
    some (ops.updateWindow msg.hwnd (losword msg.wParam) (hisword msg.wParam) (losword msg.lParam)
      (hisword msg.lParam) s)
  else if msg.hwnd = cfg.hwndNull then
    some (ops.queueDeskMessage { msg with hwnd := cfg.hwndDesktop } s)
  else if ops.checkHwnd msg.hwnd s then some (ops.queueDeskMessage msg s)
  else some s

/-- How the loop is left. -/
inductive Waited (σ : Type)
  | marker (s : σ)
  | error (n : Code) (s : σ)
  | exits

/-- A turn of the loop that waits for the marker. -/
def waitTurn (s : σ) : Option (σ ⊕ Waited σ) :=
  let ((n, bytes), s) := ops.sockRead cfg.layout.size s
  if n.negative then some (.inr (.error n s))
  else
    let msg := cfg.layout.decode bytes
    if msg.hwnd = cfg.hwndInvalid then some (.inr (.marker s))
    else
      match processSocketMessage cfg ops msg s with
      | none => some (.inr .exits)
      | some s => some (.inl s)

/-- The reply behind the marker; `wantsFd` is whether `fd_received` is given. -/
def receiveReply (lenRslt : ℕ) (wantsFd : Bool) : Waited σ → ClientResult σ
  | .exits => .exits
  | .error n s => sockError ops n s
  | .marker s =>
    let ((n, fd, bytes), s) := ops.sockRecvmsg lenRslt s
    if n.negative then sockError ops n s
    else .ok (some ⟨bytes, if wantsFd then some (fd.getD (-1)) else none⟩) (ops.onUnlock s)

/-- `ClientRequestEx2`. A null `result` is a `lenRslt` of zero. -/
def clientRequestEx2 (fuel : ℕ) (request : Request) (lenRslt : ℕ) (wantsFd : Bool) (s : σ) :
    Option (ClientResult σ) :=
  if lenRslt = 0 then some (clientRequestNoReply cfg ops request s)
  else
    match requestHead cfg ops request s with
    | .ok _ s => (loop (waitTurn cfg ops) fuel s).map (receiveReply ops lenRslt wantsFd)
    | other => some other

end Client

/-! ### The server -/

section Server

variable {σ : Type} {sizeT : ℕ}

/-- `MSG msg = {HWND_INVALID, 0};` -/
def ClientConfig.marker (cfg : ClientConfig sizeT) : Msg sizeT := ⟨cfg.hwndInvalid, 0, 0, 0, 0⟩

/-- `ServerSendReplyEx`, where `ops` writes to the client. -/
def serverSendReplyEx (cfg : ClientConfig sizeT) (ops : ClientOps σ) (reply : List Byte)
    (fdToSend : Fd) (s : σ) : Code × σ :=
  let (n, s) := ops.sockWrite (cfg.layout.encode cfg.marker) s
  if n.negative then (.io, s)
  else ops.sockSendmsg reply (if fdToSend ≥ 0 then some fdToSend else none) s

/-- The server writes messages, one after the other. -/
def sendMsgs (cfg : ClientConfig sizeT) (ops : ClientOps σ) (msgs : List (Msg sizeT)) (s : σ) : σ :=
  msgs.foldl (fun s msg => (ops.sockWrite (cfg.layout.encode msg) s).2) s

end Server

end Aple.ClientServer
