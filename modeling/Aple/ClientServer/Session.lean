/-
**Requests of several threads on one connection.**

The threads of a client call `ClientRequestEx2` and `client_IdleHandler4Client` with the callbacks
`OnLockClientReq`, `OnTrylockClientReq` and `OnUnlockClientReq` of one lock; the server serves its
requests and writes messages of its own in between. The connection is a Unix socket that is ordered
and does not fail.

* `Asked`, `Phase` — a call of `ClientRequestEx2`, and where a thread is.
* `Desk` — the server behind the stream: what it wrote to the client, its own state, and what its
  handlers answered; `Handlers` are their bodies.
* `Session` — the threads, the lock, the two streams, and what happened.
* `sessionExec` — one step: a thread writes or reads one cell, the server serves one request.
* `sessionSystem` — every interleaving.
-/

import Aple.ClientServer.ReplyDemux
import Aple.Lib.CellWise
import Aple.Lib.Reach

namespace Aple.ClientServer

open Aple.Lib

/-! ### The client -/

/-- The arguments of `ClientRequestEx2`; a null `result` is a `lenRslt` of zero, and `wantsFd` is
whether `fd_received` is given. -/
structure Asked where
  request : Request
  lenRslt : ℕ
  wantsFd : Bool
deriving DecidableEq, Repr

/-- Where a thread is. `sends` has the cells that are left to write, `waits` and `polls` have the
bytes of the message that `sock_read` got so far, `receives` what `sock_recvmsg` got. -/
inductive Phase
  | idle
  | locks (asked : Asked)
  | sends (asked : Asked) (left : List (Cell Fd))
  | waits (asked : Asked) (got : List Byte)
  | receives (asked : Asked) (fd : Option Fd) (got : List Byte)
  | polls (got : List Byte)
  | unlocks
  | stuck (asked : Asked)
deriving DecidableEq, Repr

/-- The thread has the lock. -/
def Phase.inside : Phase → Bool
  | .idle | .locks _ => false
  | _ => true

/-- A descriptor travels with at least one byte. -/
def unixAttaches (len : ℕ) : Bool := decide (0 < len)

/-- `*result` and `*fd_received` for a reply. -/
def Asked.delivered (asked : Asked) (fd : Option Fd) (bytes : List Byte) : Reply :=
  ⟨bytes, if asked.wantsFd then some (fd.getD (-1)) else none⟩

/-- Behind the last write: a request without a result is over. -/
def Asked.afterWrite (asked : Asked) : Phase :=
  if asked.lenRslt = 0 then .unlocks else .waits asked []

/-! ### The server -/

/-- An answer of a handler: the reply it sends, if any, with its descriptor. -/
abbrev HandlerAnswer := Option (List Byte × Fd)

/-- The bodies of the handlers, and the other functions of the server. -/
structure Handlers (H σ : Type) where
  respond : Call H → σ → HandlerAnswer × σ
  close : Fd → σ → σ
  checkDirtyZnode : σ → σ
  mgRemoveClient : σ → σ

/-- The server behind its end of the connection. -/
structure Desk (H σ : Type) where
  toClient : List (Cell Fd)
  state : σ
  answers : List (Call H × HandlerAnswer)

section Model

variable {Thread H σ : Type} {sizeT : ℕ} (cfg : ClientConfig sizeT) (handlers : Handlers H σ)

/-- The handlers send their replies with `ServerSendReplyEx`, and return its code. -/
def deskOutside : Outside H (Desk H σ) where
  answer call desk :=
    match handlers.respond call desk.state with
    | (none, state) =>
      (.other 0, { desk with state := state, answers := desk.answers ++ [(call, none)] })
    | (some (reply, fd), state) =>
      let (n, toClient) := serverSendReplyEx cfg (clientOps unixAttaches) reply fd desk.toClient
      (n, ⟨toClient, state, desk.answers ++ [(call, some (reply, fd))]⟩)
  close fd desk := { desk with state := handlers.close fd desk.state }
  checkDirtyZnode desk := { desk with state := handlers.checkDirtyZnode desk.state }
  mgRemoveClient desk := { desk with state := handlers.mgRemoveClient desk.state }

/-- The four reads of a request and what they leave; `none` while one of them would wait. -/
def receiveFrame (sizeT : ℕ) (stream : List (Cell Fd)) :
    Option (Option Fd × List Byte × List (Cell Fd)) :=
  (readBytes 4 stream).bind fun (_, stream) =>
    (readBytes sizeT stream).bind fun (reqDataLen, stream) =>
      (readBytes sizeT stream).bind fun (exDataLen, stream) =>
        receiveMsg (sizeWord sizeT reqDataLen + sizeWord sizeT exDataLen).toNat stream

/-! ### The session -/

/-- The threads, the lock and the connection. `sent` has the requests in the order in which their
threads got the lock, `pushed` and `taken` the messages that the server wrote and that the threads
read, `returned` the replies. -/
structure Session (Thread H σ : Type) (sizeT : ℕ) where
  holder : Option Thread
  phase : Thread → Phase
  server : Link H (Desk H σ)
  sent : List (Thread × Asked)
  pushed : List (Msg sizeT)
  taken : List (Msg sizeT)
  returned : List (Thread × Asked × Reply)

/-- A step of a thread, or of the server. -/
inductive SessionEvent (Thread σ : Type) (sizeT : ℕ)
  | call (thread : Thread) (asked : Asked)
  | lock (thread : Thread)
  | write (thread : Thread)
  | read (thread : Thread)
  | unlock (thread : Thread)
  | poll (thread : Thread)
  | serve
  | push (msg : Msg sizeT)
  | act (state : σ)

/-- The connection is open, and nobody has asked for anything. -/
def Session.start (state : σ) : Session Thread H σ sizeT :=
  ⟨none, fun _ => .idle, ⟨[], fun _ _ => 0, 0, [], ⟨[], state, []⟩⟩, [], [], [], []⟩

variable [DecidableEq Thread]

namespace Session

variable (s : Session Thread H σ sizeT)

def goto (thread : Thread) (phase : Phase) : Session Thread H σ sizeT :=
  { s with phase := Function.update s.phase thread phase }

/-- Write to the end of what comes from the client. -/
def written (cell : Cell Fd) : Session Thread H σ sizeT :=
  { s with server := { s.server with stream := s.server.stream ++ [cell] } }

/-- Change what comes from the server. -/
def incoming (stream : List (Cell Fd)) : Session Thread H σ sizeT :=
  { s with server := { s.server with world := { s.server.world with toClient := stream } } }

/-- A message was read by a thread that waits for its reply. A wake-up makes it send a request from
inside its own: it waits for its own lock, or the process exits. -/
def heard (thread : Thread) (asked : Asked) (msg : Msg sizeT) : Session Thread H σ sizeT :=
  if msg.hwnd = cfg.hwndInvalid then s.goto thread (.receives asked none [])
  else
    { s with taken := s.taken ++ [msg] }.goto thread
      (if msg.message = cfg.msgWakeupClient then .stuck asked else .waits asked [])

/-- One cell is read; an attachment that `sock_read` finds is lost. -/
def readCell (thread : Thread) (cell : Cell Fd) : Option (Session Thread H σ sizeT) :=
  match s.phase thread, cell with
  | .waits asked got, .byte value =>
    some (if (got ++ [value]).length < cfg.layout.size then s.goto thread (.waits asked (got ++ [value]))
      else s.heard cfg thread asked (cfg.layout.decode (got ++ [value])))
  | .waits _ _, .attached _ => some s
  | .receives asked fd got, .byte value =>
    some (if (got ++ [value]).length < asked.lenRslt then
        s.goto thread (.receives asked fd (got ++ [value]))
      else
        { s with returned := s.returned ++ [(thread, asked, asked.delivered fd (got ++ [value]))] }.goto
          thread .unlocks)
  | .receives asked none [], .attached value => some (s.goto thread (.receives asked (some value) []))
  | .receives _ _ _, .attached _ => some s
  | .polls got, .byte value =>
    some (if (got ++ [value]).length < cfg.layout.size then s.goto thread (.polls (got ++ [value]))
      else { s with taken := s.taken ++ [cfg.layout.decode (got ++ [value])] }.goto thread .unlocks)
  | .polls _, .attached _ => some s
  | _, _ => none

end Session

/-- Run one event. `__mg_handle_request` runs when its reads do not wait. -/
def sessionExec (registry : Registry H) (s : Session Thread H σ sizeT) :
    SessionEvent Thread σ sizeT → Option (Session Thread H σ sizeT)
  | .call thread asked =>
    if s.phase thread = .idle ∧ cfg.mgIsServer = false ∧
        ¬ (cfg.mgClientId = 0 ∧ asked.request.id &&& cfg.reqmaskJoinlayerfirst ≠ 0)
    then some (s.goto thread (.locks asked))
    else none
  | .lock thread =>
    match s.phase thread, s.holder with
    | .locks asked, none =>
      some ({ s with holder := some thread, sent := s.sent ++ [(thread, asked)] }.goto thread
        (.sends asked (frame unixAttaches sizeT asked.request)))
    | _, _ => none
  | .write thread =>
    match s.phase thread with
    | .sends asked (cell :: left) =>
      some ((s.written cell).goto thread (if left = [] then asked.afterWrite else .sends asked left))
    | _ => none
  | .read thread =>
    match s.server.world.toClient with
    | [] => none
    | cell :: rest => (s.incoming rest).readCell cfg thread cell
  | .unlock thread =>
    if s.phase thread = .unlocks then some ({ s with holder := none }.goto thread .idle) else none
  | .poll thread =>
    if s.phase thread = .idle ∧ s.holder = none then
      some ({ s with holder := some thread }.goto thread (.polls []))
    else none
  | .serve =>
    if (receiveFrame sizeT s.server.stream).isSome then
      some { s with server := serveRequest (deskOutside cfg handlers) registry sizeT s.server }
    else none
  | .push msg =>
    some { s.incoming (s.server.world.toClient ++ cells (cfg.layout.encode msg)) with
      pushed := s.pushed ++ [msg] }
  | .act state =>
    some { s with server := { s.server with world := { s.server.world with state := state } } }

/-- Every interleaving, from any state of the server. -/
def sessionSystem (registry : Registry H) :
    System (Session Thread H σ sizeT) (SessionEvent Thread σ sizeT) where
  init s := ∃ state, s = Session.start state
  step s event after := sessionExec cfg handlers registry s event = some after

end Model

end Aple.ClientServer
