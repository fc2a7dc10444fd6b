/-
**Making a connection.**

* `cli_conn`, `client_check_unix_socket`, `serv_listen` and `serv_accept` call by call, for any number
  of threads and one server; any call may fail, and other programs make files, remove them and connect.
  A name that fills `sun_path`, where the `NUL` of `serv_accept` is written behind the array, is left out.
* `clientPath` — the name that a client binds; `readPid` — the number that the server reads in a name.
* `readPid_clientPath`, `clientPath_pid` — it is the process of the name.
* `handshakeExec`, `handshakeSystem` — every interleaving.
* `OwnNames` — nobody puts a file of another user at the name of a client.
-/

import Mathlib.Data.Finset.Insert
import Aple.ClientServer.Request
import Aple.Lib.Decimal
import Aple.Lib.Reach
import Aple.Process.CronConfig

namespace Aple.ClientServer

open Aple.Lib
open Aple.Process (cLocale cString)

/-! ### Names -/

/-- A name of a file, without its `NUL`. -/
abbrev Path := List Byte

/-- `pid_t`, of a process. -/
abbrev Pid := Fin (2 ^ 31)

abbrev Uid := ℕ

def slash : Byte := 47

def dash : Byte := 45

/-- `CLI_PATH`, `/var/tmp/`. -/
def cliPath : Path := [slash, 118, 97, 114, slash, 116, 109, 112, slash]

/-- `'0'` to `'9'`. -/
def figures : Numerals cLocale where
  figure d := BitVec.ofNat 8 (48 + d)
  reads := by decide

/-- `sprintf (…, "%s%05d-%c", CLI_PATH, getpid(), project)`, as a string. -/
def clientPath (pid : Pid) (project : Byte) : Path :=
  cString (cliPath ++ (decimal figures 5 pid ++ [dash, project]))

/-- A number at the start of a text, or 0; `none` for one that is no `int`, where it is undefined. -/
def atoi (text : List Byte) : Option ℤ :=
  match cLocale.readInt text with
  | none => some 0
  | some (n, _) => if -2 ^ 31 ≤ n ∧ n < 2 ^ 31 then some n else none

/-- `strrchr (…, '/')`, `pid_str++` and `atoi`; undefined for a name without a `/`. -/
def readPid (sunPath : Path) : Option ℤ := (after slash sunPath).bind atoi

/-! ### Files -/

/-- What `stat` tells and the code looks at; the mode in two parts. -/
structure Statbuf where
  stIsSock : Bool
  stPerm : ℕ
  stUid : Uid
  stAtime : ℕ
  stCtime : ℕ
  stMtime : ℕ
deriving DecidableEq, Repr

def sIrwxu : ℕ := 0o700
def sIrwxg : ℕ := 0o070
def sIrwxo : ℕ := 0o007

/-- `CLI_PERM`. -/
def cliPerm : ℕ := sIrwxu

/-- `STALE`, in seconds. -/
def stale : ℕ := 30

/-- The checks of the mode, with the value that is returned. -/
def Statbuf.refusal (b : Statbuf) : Option ℤ :=
  if b.stIsSock = false then some (-3)
  else if b.stPerm &&& (sIrwxg ||| sIrwxo) ≠ 0 ∨ b.stPerm &&& sIrwxu ≠ sIrwxu then some (-4)
  else none

/-- The check of the times. -/
def Statbuf.IsStale (b : Statbuf) (now : ℕ) : Prop :=
  let staletime : ℤ := now - stale
  b.stAtime < staletime ∨ b.stCtime < staletime ∨ b.stMtime < staletime

instance (b : Statbuf) (now : ℕ) : Decidable (b.IsStale now) :=
  inferInstanceAs (Decidable (_ ∨ _))

/-- A socket that was just bound, where the mask of the process leaves `perm`. -/
def Statbuf.bound (uid : Uid) (perm now : ℕ) : Statbuf := ⟨true, perm, uid, now, now, now⟩

def Statbuf.chmod (b : Statbuf) (perm now : ℕ) : Statbuf := { b with stPerm := perm, stCtime := now }

abbrev Files := Path → Option Statbuf

/-- No file has the empty name. -/
def Files.stat (files : Files) (path : Path) : Option Statbuf := if path = [] then none else files path

/-- There is no file of the name, and it is not one of a directory. -/
def Files.CanBind (files : Files) (path : Path) : Prop :=
  files path = none ∧ path.getLast? ≠ some slash

instance (files : Files) (path : Path) : Decidable (files.CanBind path) :=
  inferInstanceAs (Decidable (_ ∧ _))

/-! ### The parties -/

/-- Processes, their users, and the name of the server. -/
structure Host (Thread : Type) where
  pid : Thread → Pid
  uid : Pid → Uid
  name : Path
  serverUid : Uid
  apart : ∀ pid project, clientPath pid project ≠ name

/-- Who made a connection: `cli_conn` with its descriptor, `client_check_unix_socket`, or another
program, with the name it is bound to. -/
inductive Peer (Thread : Type)
  | conn (thread : Thread) (project : Byte) (fd : Fd)
  | check (thread : Thread)
  | other (path : Path)
deriving DecidableEq

/-- The calls for a name of one's own, up to the `connect` or the `listen`. -/
inductive NameCall
  | unlink | bind | chmod | last
deriving DecidableEq, Repr

/-- What a thread calls next: in `cli_conn`, behind its label `error`, and in
`client_check_unix_socket`. -/
inductive Stage
  | idle
  | conn (call : NameCall) (fd : Fd) (project : Byte)
  | error (fd : Fd)
  | check (fd : Fd)
  | checked (fd : Fd)
deriving DecidableEq, Repr

/-- The descriptor that a call has not returned yet. -/
def Stage.fd : Stage → Option Fd
  | .idle => none
  | .conn _ fd _ | .error fd | .check fd | .checked fd => some fd

/-- What the server calls next in `serv_accept`. -/
inductive Work (Thread : Type)
  | accept
  | stat (clifd : Fd) (peer : Peer Thread)
  | time (clifd : Fd) (peer : Peer Thread) (statbuf : Statbuf)
  | unlink (clifd : Fd) (peer : Peer Thread) (pid : ℤ) (uid : Uid)
  | undefined (clifd : Fd) (peer : Peer Thread)
deriving DecidableEq

/-- The connection that is looked at. -/
def Work.taken {Thread : Type} : Work Thread → Option (Fd × Peer Thread)
  | .accept => none
  | .stat clifd peer | .time clifd peer _ | .unlink clifd peer _ _ | .undefined clifd peer =>
    some (clifd, peer)

/-- What the server calls next: in `serv_listen`, behind its label `error`, and in `serv_accept`. -/
inductive Listener (Thread : Type)
  | off
  | starts (call : NameCall) (fd : Fd)
  | error (fd : Fd)
  | up (listenfd : Fd) (work : Work Thread)
deriving DecidableEq

def Listener.taken {Thread : Type} : Listener Thread → Option (Fd × Peer Thread)
  | .up _ work => work.taken
  | .off | .starts _ _ | .error _ => none

/-- The descriptors of the server that no client got. -/
def Listener.own {Thread : Type} : Listener Thread → Option Fd
  | .off => none
  | .starts _ fd | .error fd | .up fd _ => some fd

/-- How `serv_accept` returned. -/
inductive Verdict
  | accepted (clifd : Fd) (pid : ℤ) (uid : Uid)
  | refused (code : ℤ) (clifd : Fd)
deriving DecidableEq, Repr

/-- The descriptor of a connection that was refused; it is not closed. -/
def Verdict.leaked : Verdict → Option Fd
  | .accepted _ _ _ => none
  | .refused _ clifd => some clifd

structure Handshake (Thread : Type) where
  now : ℕ
  files : Files
  stage : Thread → Stage
  /-- The open descriptors of a process, and those of them that its callers have. -/
  fds : Pid → Finset Fd
  handed : Pid → Finset Fd
  server : Listener Thread
  /-- The same for the server. -/
  serverFds : Finset Fd
  serverHanded : Finset Fd
  /-- The connections that wait, and all of them so far. -/
  queue : List (Peer Thread)
  connected : List (Peer Thread)
  verdicts : List (Peer Thread × Verdict)

/-! ### The calls -/

section Calls

variable {Thread : Type}

/-- The name that the other end is bound to. -/
def Host.sunPath (host : Host Thread) : Peer Thread → Path
  | .conn thread project _ => clientPath (host.pid thread) project
  | .check _ => []
  | .other path => path

namespace Handshake

variable (s : Handshake Thread)

def setFile (path : Path) (file : Option Statbuf) : Handshake Thread :=
  { s with files := Function.update s.files path file }

/-- A `chmod`, of a file that there is. -/
def chmod (path : Path) (perm : ℕ) : Handshake Thread :=
  s.setFile path ((s.files path).map fun b => b.chmod perm s.now)

def toServer (server : Listener Thread) : Handshake Thread := { s with server := server }

def connect (peer : Peer Thread) : Handshake Thread :=
  { s with queue := s.queue ++ [peer], connected := s.connected ++ [peer] }

/-- `serv_accept` returns. -/
def judge (listenfd : Fd) (peer : Peer Thread) (verdict : Verdict) : Handshake Thread :=
  { s with server := .up listenfd .accept, verdicts := s.verdicts ++ [(peer, verdict)] }

def openServer (fd : Fd) : Handshake Thread := { s with serverFds := insert fd s.serverFds }

def closeServer (fd : Fd) : Handshake Thread := { s with serverFds := s.serverFds.erase fd }

/-- The server listens, and its backlog has room. -/
def CanConnect : Prop := (∃ listenfd work, s.server = .up listenfd work) ∧ s.queue.length ≤ 5

instance : Decidable s.CanConnect :=
  match is : s.server with
  | .up listenfd work => decidable_of_iff (s.queue.length ≤ 5)
      ⟨fun room => ⟨⟨listenfd, work, is⟩, room⟩, And.right⟩
  | .off | .starts _ _ | .error _ => isFalse (by rintro ⟨⟨_, _, up⟩, -⟩; rw [is] at up; cases up)

variable [DecidableEq Thread]

def goTo (thread : Thread) (stage : Stage) : Handshake Thread :=
  { s with stage := Function.update s.stage thread stage }

def openClient (pid : Pid) (fd : Fd) : Handshake Thread :=
  { s with fds := Function.update s.fds pid (insert fd (s.fds pid)) }

def closeClient (pid : Pid) (fd : Fd) : Handshake Thread :=
  { s with fds := Function.update s.fds pid ((s.fds pid).erase fd) }

/-- `cli_conn` returns a descriptor. -/
def hand (pid : Pid) (fd : Fd) : Handshake Thread :=
  { s with handed := Function.update s.handed pid (insert fd (s.handed pid)) }

end Handshake

/-- The next call of `cli_conn`; `perm` is what the mask of the process leaves. -/
def connNext [DecidableEq Thread] (host : Host Thread) (s : Handshake Thread) (thread : Thread)
    (call : NameCall) (fd : Fd) (project : Byte) (ok : Bool) (perm : ℕ) : Option (Handshake Thread) :=
  let sunPath := clientPath (host.pid thread) project
  match call, ok with
  -- the result of the `unlink` is not looked at
  | .unlink, false => some (s.goTo thread (.conn .bind fd project))
  | .unlink, true => some ((s.setFile sunPath none).goTo thread (.conn .bind fd project))
  | .bind, true =>
    if s.files.CanBind sunPath then
      some ((s.setFile sunPath (some (.bound (host.uid (host.pid thread)) perm s.now))).goTo thread
        (.conn .chmod fd project))
    else none
  | .chmod, true =>
    if (s.files sunPath).isSome then
      some ((s.chmod sunPath cliPerm).goTo thread (.conn .last fd project))
    else none
  | .last, true =>
    if s.CanConnect then
      some (((s.connect (.conn thread project fd)).hand (host.pid thread) fd).goTo thread .idle)
    else none
  | .bind, false | .chmod, false | .last, false => some (s.goTo thread (.error fd))

/-- The next call of `serv_listen`. -/
def listenNext (host : Host Thread) (s : Handshake Thread) (call : NameCall) (fd : Fd) (ok : Bool)
    (perm : ℕ) : Option (Handshake Thread) :=
  match call, ok with
  | .unlink, false => some (s.toServer (.starts .bind fd))
  | .unlink, true => some ((s.setFile host.name none).toServer (.starts .bind fd))
  | .bind, true =>
    if s.files.CanBind host.name then
      some ((s.setFile host.name (some (.bound host.serverUid perm s.now))).toServer (.starts .chmod fd))
    else none
  | .chmod, true =>
    if (s.files host.name).isSome then
      some ((s.chmod host.name 0o666).toServer (.starts .last fd))
    else none
  | .last, true => some (s.toServer (.up fd .accept))
  | .bind, false | .chmod, false | .last, false => some (s.toServer (.error fd))

/-- The next call of `serv_accept`, behind the `accept`; its `stat` may fail for a file that there is. -/
def acceptNext (host : Host Thread) (s : Handshake Thread) (listenfd : Fd) (ok : Bool) :
    Work Thread → Option (Handshake Thread)
  | .accept => none
  | .stat clifd peer =>
    match if ok then s.files.stat (host.sunPath peer) else none with
    | none => some (s.judge listenfd peer (.refused (-2) clifd))
    | some statbuf =>
      match statbuf.refusal with
      | some code => some (s.judge listenfd peer (.refused code clifd))
      | none => some (s.toServer (.up listenfd (.time clifd peer statbuf)))
  | .time clifd peer statbuf =>
    if statbuf.IsStale s.now then some (s.judge listenfd peer (.refused (-5) clifd))
    else
      match readPid (host.sunPath peer) with
      | none => some (s.toServer (.up listenfd (.undefined clifd peer)))
      | some pid => some (s.toServer (.up listenfd (.unlink clifd peer pid statbuf.stUid)))
  | .unlink clifd peer pid uid =>
    let s := if ok then s.setFile (host.sunPath peer) none else s
    some ({ s with serverHanded := insert clifd s.serverHanded }.judge listenfd peer
      (.accepted clifd pid uid))
  | .undefined _ _ => none

/-- What can happen. A `socket` or an `accept` gives a descriptor or fails; `ok` says whether the next
call succeeds. -/
inductive HandshakeEvent (Thread : Type)
  | cliConn (thread : Thread) (project : Byte) (fd : Option Fd)
  | conn (thread : Thread) (ok : Bool) (perm : ℕ)
  | check (thread : Thread) (fd : Option Fd)
  | checkNext (thread : Thread) (ok : Bool)
  | close (pid : Pid) (fd : Fd)
  | servListen (fd : Option Fd)
  | listen (ok : Bool) (perm : ℕ)
  | accept (clifd : Option Fd)
  | serve (ok : Bool)
  | closeAccepted (clifd : Fd)
  | other (path : Path)
  | place (path : Path) (statbuf : Statbuf)
  | remove (path : Path)
  | tick

/-- One call of one party, or a step of another program. -/
def handshakeExec [DecidableEq Thread] (host : Host Thread) (s : Handshake Thread) :
    HandshakeEvent Thread → Option (Handshake Thread)
  | .cliConn thread project fd =>
    if s.stage thread = .idle then
      match fd with
      | none => some s
      | some fd =>
        if fd ∈ s.fds (host.pid thread) ∨ fd < 0 then none
        else some ((s.openClient (host.pid thread) fd).goTo thread (.conn .unlink fd project))
    else none
  | .conn thread ok perm =>
    match s.stage thread with
    | .conn call fd project => connNext host s thread call fd project ok perm
    | .error fd => some ((s.closeClient (host.pid thread) fd).goTo thread .idle)
    | .idle | .check _ | .checked _ => none
  | .check thread fd =>
    -- `access` succeeds; otherwise there is no `socket`
    if s.stage thread = .idle then
      match fd with
      | none => some s
      | some fd =>
        if fd ∈ s.fds (host.pid thread) ∨ fd < 0 then none
        else some ((s.openClient (host.pid thread) fd).goTo thread (.check fd))
    else none
  | .checkNext thread ok =>
    match s.stage thread with
    | .check fd =>
      if ok then
        if s.CanConnect then some ((s.connect (.check thread)).goTo thread (.checked fd)) else none
      else some (s.goTo thread (.checked fd))
    | .checked fd => some ((s.closeClient (host.pid thread) fd).goTo thread .idle)
    | .idle | .conn _ _ _ | .error _ => none
  | .close pid fd =>
    if fd ∈ s.handed pid then
      some { s.closeClient pid fd with
        handed := Function.update s.handed pid ((s.handed pid).erase fd) }
    else none
  | .servListen fd =>
    if s.server = .off then
      match fd with
      | none => some s
      | some fd =>
        if fd ∈ s.serverFds ∨ fd < 0 then none
        else some ((s.openServer fd).toServer (.starts .unlink fd))
    else none
  | .listen ok perm =>
    match s.server with
    | .starts call fd => listenNext host s call fd ok perm
    | .error fd => some ((s.closeServer fd).toServer .off)
    | .off | .up _ _ => none
  | .accept clifd =>
    match s.server with
    | .up listenfd .accept =>
      match clifd, s.queue with
      | none, _ => some s
      | some _, [] => none
      | some clifd, peer :: rest =>
        if clifd ∈ s.serverFds ∨ clifd < 0 then none
        else some ({ s with queue := rest }.openServer clifd |>.toServer
          (.up listenfd (.stat clifd peer)))
    | _ => none
  | .serve ok =>
    match s.server with
    | .up listenfd work => acceptNext host s listenfd ok work
    | _ => none
  | .closeAccepted clifd =>
    if clifd ∈ s.serverHanded then
      some { s.closeServer clifd with serverHanded := s.serverHanded.erase clifd }
    else none
  | .other path => if s.CanConnect then some (s.connect (.other path)) else none
  | .place path statbuf => some (s.setFile path (some statbuf))
  | .remove path => some (s.setFile path none)
  | .tick => some { s with now := s.now + 1 }

/-- No call is under way; there may be any files. -/
def Handshake.start (now : ℕ) (files : Files) : Handshake Thread :=
  ⟨now, files, fun _ => .idle, fun _ => ∅, fun _ => ∅, .off, ∅, ∅, [], [], []⟩

/-- Every interleaving. -/
def handshakeSystem [DecidableEq Thread] (host : Host Thread) :
    System (Handshake Thread) (HandshakeEvent Thread) where
  init s := ∃ now files, s = .start now files
  step s event after := handshakeExec host s event = some after

/-- **Nobody puts a file of another user at the name of a client.** -/
def OwnNames (host : Host Thread) (_ : Handshake Thread) : HandshakeEvent Thread → Prop
  | .place path statbuf =>
    ∀ pid project, path = clientPath pid project → statbuf.stUid = host.uid pid
  | _ => True

end Calls

end Aple.ClientServer
