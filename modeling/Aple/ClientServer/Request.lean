/-
**Requests: the sending half of ClientRequestEx2 and __mg_handle_request.**

* `Code` — what the socket functions and the handlers return.
* `ClientOps`, `sendRequest` — the client writes the id, the two lengths and one message with both
  payloads and the descriptor.
* `ServerOps`, `mgHandleRequest` — the server reads the lengths, picks a buffer, receives into it
  and calls the handler. Everything the function calls is a field of `ServerOps`, so that the same
  text runs over a byte stream, over failing sockets or over a log.

The values of `SOCKERR_*`, `REQMASK_FLAGS`, `MAX_REQID` and `REQID_IAMLIVE` are not part of the
sources; the codes are told apart by their names, the other three are parameters.
-/

import Mathlib.Data.Int.Notation
import Aple.Lib.Words

namespace Aple.ClientServer

open Aple.Lib

/-! ### Codes and requests -/

/-- The result of a socket function or a handler: `SOCKERR_IO`, `SOCKERR_CLOSED`, `SOCKERR_INVARG`
or another value. -/
inductive Code
  | io | closed | invarg
  | other (n : ℤ)
deriving DecidableEq, Repr

/-- The test `n < 0`. -/
def Code.negative : Code → Bool
  | .other n => decide (n < 0)
  | _ => true

/-- A descriptor stands for its open file; a negative one is none. -/
abbrev Fd := ℤ

/-- The arguments of `ClientRequestEx2` that are sent. -/
structure Request where
  id : BitVec 32
  data : List Byte
  exData : List Byte
  fdToSend : Fd
deriving DecidableEq, Repr

/-! ### The client -/

/-- The two functions of the client that write to the socket. `sock_sendmsg` gathers its regions. -/
structure ClientOps (σ : Type) where
  sockWrite : List Byte → σ → Code × σ
  sockSendmsg : List Byte → Option Fd → σ → Code × σ

/-- `ClientRequestEx2` up to the reply; `sizeT` is `sizeof (size_t)`. The code is the one of the
first call that fails, or of the last one. -/
def sendRequest {σ : Type} (ops : ClientOps σ) (sizeT : ℕ) (request : Request) (s : σ) : Code × σ :=
  let (n, s) := ops.sockWrite (toBytes 4 request.id.toNat) s
  if n.negative then (n, s)
  else
    let (n, s) := ops.sockWrite (toBytes sizeT request.data.length) s
    if n.negative then (n, s)
    else
      let (n, s) := ops.sockWrite (toBytes sizeT request.exData.length) s
      if n.negative then (n, s)
      else
        ops.sockSendmsg (request.data ++ request.exData)
          (if request.fdToSend ≥ 0 then some request.fdToSend else none) s

/-! ### The server -/

/-- An entry of the table `handlers`; the null handler is `none`. -/
structure ReqRequest (H : Type) where
  handler : Option H
  version : ℤ

/-- The constants the server compares with, and the handler table from index 0. -/
structure Registry (H : Type) where
  reqmaskFlags : BitVec 32
  maxReqid : ℤ
  reqidIamlive : BitVec 32
  handlers : ℕ → ReqRequest H

/-- Where `buff` points: `_request_data_buff` or a block from `malloc`. -/
inductive Buff
  | requestDataBuff
  | block (addr : ℕ)
deriving DecidableEq, Repr

/-- `sizeof (_request_data_buff)`. -/
def requestDataBuffSize : ℕ := 1024

/-- What `__mg_handle_request` calls. `sockRecvmsg` scatters into two regions of the buffer, of the
two lengths, one behind the other; `checkDirtyZnode` includes the test of `has_dirty`. -/
structure ServerOps (σ H : Type) where
  sockRead : ℕ → σ → (Code × List Byte) × σ
  malloc : ℕ → σ → Option ℕ × σ
  sockRecvmsg : Buff → ℕ → ℕ → σ → (Code × Option Fd) × σ
  callV1 : H → Buff → ℕ → Fd → σ → Code × σ
  callV0 : H → Buff → ℕ → σ → Code × σ
  close : Fd → σ → σ
  free : ℕ → σ → σ
  checkDirtyZnode : σ → σ
  mgRemoveClient : σ → σ

variable {σ H : Type}

/-- The handler registered for an id, after the range test. -/
def Registry.lookup (registry : Registry H) (reqId : BitVec 32) : Option (H × ℤ) :=
  if reqId.toInt > registry.maxReqid ∨ reqId.toInt ≤ 0 then none
  else
    let entry := registry.handlers (reqId.toNat - 1)
    entry.handler.map fun handler => (handler, entry.version)

/-- The call of the handler. A version 0 handler gets no descriptor, so a received one is closed. -/
def callHandler (ops : ServerOps σ H) (handler : H) (version : ℤ) (buff : Buff) (lenData : ℕ)
    (fdReceived : Fd) (s : σ) : Code × σ :=
  if version = 1 then ops.callV1 handler buff lenData fdReceived s
  else
    let s := if fdReceived ≥ 0 then ops.close fdReceived s else s
    ops.callV0 handler buff lenData s

/-- `if (len_data > sizeof (_request_data_buff)) free (buff);` -/
def freeBuff (ops : ServerOps σ H) (buff : Buff) (s : σ) : σ :=
  match buff with
  | .requestDataBuff => s
  | .block addr => ops.free addr s

/-- From `req_id &= ~REQMASK_FLAGS` on. -/
def runRequest (ops : ServerOps σ H) (registry : Registry H) (reqId : BitVec 32) (buff : Buff)
    (lenData : ℕ) (fdReceived : Fd) (s : σ) : Code × σ :=
  let reqId := reqId &&& ~~~registry.reqmaskFlags
  match registry.lookup reqId with
  | none => (.invarg, s)
  | some (handler, version) =>
    let (n, s) := callHandler ops handler version buff lenData fdReceived s
    let s := freeBuff ops buff s
    if n = .io then (.closed, ops.mgRemoveClient s)
    else (n, if reqId = registry.reqidIamlive then ops.checkDirtyZnode s else s)

/-- From the call of `sock_recvmsg` on. -/
def receiveRequest (ops : ServerOps σ H) (registry : Registry H) (reqId : BitVec 32) (buff : Buff)
    (reqDataLen exDataLen lenData : ℕ) (s : σ) : Code × σ :=
  match ops.sockRecvmsg buff reqDataLen exDataLen s with
  | ((.io, _), s) => (.io, s)
  | ((.closed, _), s) => (.closed, ops.mgRemoveClient s)
  | ((_, fd), s) => runRequest ops registry reqId buff lenData (fd.getD (-1)) s

/-- The word in the bytes of a `size_t`. -/
def sizeWord (sizeT : ℕ) (bytes : List Byte) : BitVec (8 * sizeT) :=
  BitVec.ofNat (8 * sizeT) (ofBytes bytes)

/-- `__mg_handle_request`. The sum of the lengths is a `size_t`, so it wraps. -/
def mgHandleRequest (ops : ServerOps σ H) (registry : Registry H) (sizeT : ℕ) (reqId : BitVec 32)
    (s : σ) : Code × σ :=
  match ops.sockRead sizeT s with
  | ((.io, _), s) => (.io, s)
  | ((.closed, _), s) => (.closed, ops.mgRemoveClient s)
  | ((_, reqDataLen), s) =>
    match ops.sockRead sizeT s with
    | ((.io, _), s) => (.io, s)
    | ((.closed, _), s) => (.closed, ops.mgRemoveClient s)
    | ((_, exDataLen), s) =>
      let reqDataLen := sizeWord sizeT reqDataLen
      let exDataLen := sizeWord sizeT exDataLen
      let lenData := reqDataLen + exDataLen
      if lenData.toNat ≤ requestDataBuffSize then
        receiveRequest ops registry reqId .requestDataBuff reqDataLen.toNat exDataLen.toNat
          lenData.toNat s
      else
        match ops.malloc lenData.toNat s with
        | (none, s) => (.invarg, s)
        | (some addr, s) =>
          receiveRequest ops registry reqId (.block addr) reqDataLen.toNat exDataLen.toNat
            lenData.toNat s

end Aple.ClientServer
