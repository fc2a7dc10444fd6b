/-
**The steps of a handshake.**

* `clientPath_eq` — the name that a client binds; `clientPath_pid` — the process of a name;
  **`readPid_clientPath`** — the server reads it.
* `OwnerKept`, `Named` — what the files at the names of the clients keep.
* **`handshake_step`** — what a step can do, one case for each way that a call can end.
-/

import Aple.ClientServer.Handshake

namespace Aple.ClientServer

open Aple.Lib
open Aple.Process (cLocale cString)

/-! ### Names -/

section Names

variable {pid other : Pid} {project : Byte}

/-- The project, which is not there when it is the `NUL`. -/
def lastChar (project : Byte) : List Byte := if project = 0 then [] else [project]

theorem digit_ne : ∀ c : Byte, cLocale.isDigit c = true → c ≠ 0 ∧ c ≠ slash := by decide

theorem clientPath_eq (pid : Pid) (project : Byte) :
    clientPath pid project = cliPath ++ (decimal figures 5 pid ++ dash :: lastChar project) := by
  have path : ∀ c ∈ cliPath, decide (c ≠ 0) = true := by decide
  have digits : ∀ c ∈ decimal figures 5 pid, decide (c ≠ 0) = true :=
    fun c member => decide_eq_true (digit_ne c (isDigit_decimal figures member)).1
  unfold clientPath cString lastChar
  rw [List.takeWhile_append_of_pos path, List.takeWhile_append_of_pos digits]
  by_cases zero : project = 0
  · rw [if_pos zero, zero]
    rfl
  · have kept : ∀ c ∈ [dash, project], decide (c ≠ 0) = true :=
      List.forall_mem_cons.mpr ⟨by decide, List.forall_mem_singleton.mpr (decide_eq_true zero)⟩
    rw [if_neg zero, List.takeWhile_eq_self_iff.mpr kept]

theorem stopsAt_dash (rest : List Byte) : StopsAt cLocale.isDigit (dash :: rest) := by
  intro c first
  rw [← Option.some.inj first]
  rfl

theorem atoi_name (pid : Pid) (rest : List Byte) :
    atoi (decimal figures 5 pid ++ dash :: rest) = some (pid : ℤ) := by
  have small := pid.isLt
  unfold atoi
  rw [readInt_decimal figures (by decide) (stopsAt_dash rest)]
  exact if_pos (by omega)

/-- **The process of a name.** -/
theorem clientPath_pid {project' : Byte} (same : clientPath pid project = clientPath other project') :
    pid = other := by
  rw [clientPath_eq, clientPath_eq] at same
  have number := congrArg atoi (List.append_cancel_left same)
  rw [atoi_name, atoi_name] at number
  exact Fin.ext (Int.ofNat.inj (Option.some.inj number))

theorem slash_notMem_name (named : project ≠ slash) :
    slash ∉ decimal figures 5 pid ++ dash :: lastChar project := by
  intro member
  rcases List.mem_append.mp member with digit | rest
  · exact (digit_ne slash (isDigit_decimal figures digit)).2 (Eq.refl slash)
  · rcases List.mem_cons.mp rest with here | last
    · exact absurd here (by decide)
    · unfold lastChar at last
      split at last
      · cases last
      · exact named (List.mem_singleton.mp last).symm

/-- **The server reads the process** in the name of a client. -/
theorem readPid_clientPath (named : project ≠ slash) :
    readPid (clientPath pid project) = some (pid : ℤ) := by
  have split : cliPath = cliPath.dropLast ++ [slash] := by decide
  unfold readPid
  rw [clientPath_eq, split, List.append_assoc, List.singleton_append,
    after_append slash _ (slash_notMem_name named)]
  exact atoi_name pid _

/-- A name with a `/` as its project is one of a directory. -/
theorem project_of_canBind {files : Files} (can : files.CanBind (clientPath pid project)) :
    project ≠ slash := by
  rintro rfl
  apply can.2
  have last : lastChar slash = [slash] := if_neg (by decide)
  rw [clientPath_eq, last, List.getLast?_append, List.getLast?_append]
  rfl

theorem clientPath_ne_nil : clientPath pid project ≠ [] := by
  rw [clientPath_eq]
  exact List.append_ne_nil_of_left_ne_nil (by decide) _

end Names

/-! ### What a step can do -/

section Steps

variable {Thread : Type} {host : Host Thread}

/-- A file that is at the name of a client and was not there is its own. -/
def OwnerKept (host : Host Thread) (before after : Files) : Prop :=
  ∀ pid project b, after (clientPath pid project) = some b →
    b.stUid = host.uid pid ∨ ∃ b', before (clientPath pid project) = some b' ∧ b'.stUid = b.stUid

theorem OwnerKept.refl {files : Files} : OwnerKept host files files :=
  fun _ _ b here => .inr ⟨b, here, rfl⟩

/-- A name that is removed, or that gets a file of its own user. -/
theorem OwnerKept.update {files : Files} {path : Path} {file : Option Statbuf}
    (own : ∀ b, file = some b → ∀ pid project, path = clientPath pid project →
      b.stUid = host.uid pid) : OwnerKept host files (Function.update files path file) := by
  intro pid project b here
  by_cases same : clientPath pid project = path
  · rw [same, Function.update_self] at here
    exact .inl (own b here pid project same.symm)
  · rw [Function.update_of_ne same] at here
    exact .inr ⟨b, here, rfl⟩

theorem OwnerKept.remove {files : Files} {path : Path} :
    OwnerKept host files (Function.update files path none) :=
  .update nofun

theorem OwnerKept.chmod {files : Files} {path : Path} {perm now : ℕ} : OwnerKept host files
    (Function.update files path ((files path).map fun b => b.chmod perm now)) := by
  intro pid project b here
  by_cases same : clientPath pid project = path
  · rw [same, Function.update_self] at here
    obtain ⟨b', there, changed⟩ := Option.map_eq_some_iff.mp here
    rw [← same] at there
    refine .inr ⟨b', there, ?_⟩
    rw [← changed]
    rfl
  · rw [Function.update_of_ne same] at here
    exact .inr ⟨b, here, rfl⟩

/-- Why a connection is refused: the `stat` failed, its file is not there or has another mode, or was
too old. -/
def Work.Refused (host : Host Thread) (s : Handshake Thread) (event : HandshakeEvent Thread) :
    Work Thread → Prop
  | .stat _ peer => event ≠ .serve false →
    ∀ b, s.files.stat (host.sunPath peer) = some b → b.refusal ≠ none
  | .time _ _ statbuf => statbuf.IsStale s.now
  | .accept | .unlink _ _ _ _ | .undefined _ _ => False

variable [DecidableEq Thread] {s after : Handshake Thread} {event : HandshakeEvent Thread}

/-- The file at the name of a client is its own, and the server can read the name. -/
def Named (host : Host Thread) (files : Files) (pid : Pid) (project : Byte) : Prop :=
  project ≠ slash ∧ ∀ b, files (clientPath pid project) = some b → b.stUid = host.uid pid

/-- **What a step can do**, as far as it is about the connections and the descriptors. -/
inductive HandshakeStep (host : Host Thread) (s : Handshake Thread) (event : HandshakeEvent Thread) :
    Handshake Thread → Prop
  | outside (now : ℕ) (files : Files) : s.now ≤ now → OwnerKept host s.files files →
      HandshakeStep host s event { s with now := now, files := files }
  | opens (thread : Thread) (fd : Fd) (stage : Stage) : s.stage thread = .idle →
      fd ∉ s.fds (host.pid thread) → (∃ project, stage = .conn .unlink fd project) ∨ stage = .check fd →
      HandshakeStep host s event ((s.openClient (host.pid thread) fd).goTo thread stage)
  | names (thread : Thread) (call next : NameCall) (fd : Fd) (project : Byte) (files : Files) :
      s.stage thread = .conn call fd project → OwnerKept host s.files files →
      next = .bind ∨ (next = .chmod ∧ Named host files (host.pid thread) project) ∨
        (call = .chmod ∧ next = .last) →
      HandshakeStep host s event ({ s with files := files }.goTo thread (.conn next fd project))
  | fails (thread : Thread) (stage : Stage) (fd : Fd) : (s.stage thread).fd = some fd →
      stage = .error fd ∨ stage = .checked fd → HandshakeStep host s event (s.goTo thread stage)
  | connects (thread : Thread) (fd : Fd) (project : Byte) : s.stage thread = .conn .last fd project →
      HandshakeStep host s event
        (((s.connect (.conn thread project fd)).hand (host.pid thread) fd).goTo thread .idle)
  | checks (thread : Thread) (fd : Fd) : s.stage thread = .check fd →
      HandshakeStep host s event ((s.connect (.check thread)).goTo thread (.checked fd))
  | closes (thread : Thread) (fd : Fd) : (s.stage thread).fd = some fd →
      HandshakeStep host s event ((s.closeClient (host.pid thread) fd).goTo thread .idle)
  | drops (pid : Pid) (fd : Fd) : fd ∈ s.handed pid →
      HandshakeStep host s event { s.closeClient pid fd with
        handed := Function.update s.handed pid ((s.handed pid).erase fd) }
  | others (path : Path) : HandshakeStep host s event (s.connect (.other path))
  | starts (fd : Fd) : s.server = .off → fd ∉ s.serverFds →
      HandshakeStep host s event ((s.openServer fd).toServer (.starts .unlink fd))
  | listens (files : Files) (server : Listener Thread) : OwnerKept host s.files files →
      server.own = s.server.own → s.server.taken = none → server.taken = none →
      HandshakeStep host s event ({ s with files := files }.toServer server)
  | stops (fd : Fd) : s.server = .error fd →
      HandshakeStep host s event ((s.closeServer fd).toServer .off)
  | takes (listenfd clifd : Fd) (peer : Peer Thread) (rest : List (Peer Thread)) :
      s.server = .up listenfd .accept → s.queue = peer :: rest → clifd ∉ s.serverFds →
      HandshakeStep host s event (({ s with queue := rest }.openServer clifd).toServer
        (.up listenfd (.stat clifd peer)))
  | looks (listenfd clifd : Fd) (peer : Peer Thread) (b : Statbuf) :
      s.server = .up listenfd (.stat clifd peer) → s.files.stat (host.sunPath peer) = some b →
      HandshakeStep host s event (s.toServer (.up listenfd (.time clifd peer b)))
  | reads (listenfd clifd : Fd) (peer : Peer Thread) (b : Statbuf) (pid : ℤ) :
      s.server = .up listenfd (.time clifd peer b) → readPid (host.sunPath peer) = some pid →
      HandshakeStep host s event (s.toServer (.up listenfd (.unlink clifd peer pid b.stUid)))
  | unread (listenfd clifd : Fd) (peer : Peer Thread) (b : Statbuf) :
      s.server = .up listenfd (.time clifd peer b) → readPid (host.sunPath peer) = none →
      HandshakeStep host s event (s.toServer (.up listenfd (.undefined clifd peer)))
  | refuses (listenfd clifd : Fd) (work : Work Thread) (peer : Peer Thread) (code : ℤ) :
      s.server = .up listenfd work → work.taken = some (clifd, peer) → work.Refused host s event →
      HandshakeStep host s event (s.judge listenfd peer (.refused code clifd))
  | accepts (listenfd clifd : Fd) (peer : Peer Thread) (pid : ℤ) (uid : Uid) (files : Files) :
      s.server = .up listenfd (.unlink clifd peer pid uid) → OwnerKept host s.files files →
      HandshakeStep host s event ({ s with
        files := files, serverHanded := insert clifd s.serverHanded }.judge listenfd peer
        (.accepted clifd pid uid))
  | dropsAccepted (clifd : Fd) : clifd ∈ s.serverHanded →
      HandshakeStep host s event { s.closeServer clifd with
        serverHanded := s.serverHanded.erase clifd }

theorem HandshakeStep.stays (host : Host Thread) (s : Handshake Thread) (event : HandshakeEvent Thread) :
    HandshakeStep host s event s :=
  .outside s.now s.files le_rfl .refl

theorem connNext_step {thread : Thread} {call : NameCall} {fd : Fd} {project : Byte} {ok : Bool}
    {perm : ℕ} (at_call : s.stage thread = .conn call fd project)
    (runs : connNext host s thread call fd project ok perm = some after) :
    HandshakeStep host s event after := by
  have holds : (s.stage thread).fd = some fd := congrArg Stage.fd at_call
  cases call <;> cases ok
  case unlink.false =>
    rw [← Option.some.inj runs]
    exact .names thread .unlink .bind fd project s.files at_call .refl (.inl rfl)
  case unlink.true =>
    rw [← Option.some.inj runs]
    exact .names thread .unlink .bind fd project _ at_call .remove (.inl rfl)
  case bind.true =>
    obtain ⟨can, same⟩ := Option.ite_none_right_eq_some.mp runs
    rw [← Option.some.inj same]
    refine .names thread .bind .chmod fd project _ at_call (.update ?_)
      (.inr (.inl ⟨rfl, project_of_canBind can, ?_⟩))
    · intro b bound pid project' named
      rw [← Option.some.inj bound, ← clientPath_pid named]
      rfl
    · intro b here
      rw [Function.update_self] at here
      rw [← Option.some.inj here]
      rfl
  case chmod.true =>
    obtain ⟨-, same⟩ := Option.ite_none_right_eq_some.mp runs
    rw [← Option.some.inj same]
    exact .names thread .chmod .last fd project _ at_call .chmod (.inr (.inr ⟨rfl, rfl⟩))
  case last.true =>
    obtain ⟨-, same⟩ := Option.ite_none_right_eq_some.mp runs
    rw [← Option.some.inj same]
    exact .connects thread fd project at_call
  all_goals
    rw [← Option.some.inj runs]
    exact .fails thread _ fd holds (.inl rfl)

theorem listenNext_step {call : NameCall} {fd : Fd} {ok : Bool} {perm : ℕ}
    (at_call : s.server = .starts call fd)
    (runs : listenNext host s call fd ok perm = some after) : HandshakeStep host s event after := by
  have own : s.server.own = some fd := congrArg Listener.own at_call
  have taken : s.server.taken = none := congrArg Listener.taken at_call
  cases call <;> cases ok
  case unlink.true =>
    rw [← Option.some.inj runs]
    exact .listens _ _ .remove own.symm taken rfl
  case bind.true =>
    obtain ⟨-, same⟩ := Option.ite_none_right_eq_some.mp runs
    rw [← Option.some.inj same]
    refine .listens _ _ (.update ?_) own.symm taken rfl
    intro b _ pid project named
    exact absurd named.symm (host.apart pid project)
  case chmod.true =>
    obtain ⟨-, same⟩ := Option.ite_none_right_eq_some.mp runs
    rw [← Option.some.inj same]
    exact .listens _ _ .chmod own.symm taken rfl
  all_goals
    rw [← Option.some.inj runs]
    exact .listens s.files _ .refl own.symm taken rfl

theorem acceptNext_step {listenfd : Fd} {work : Work Thread} {ok : Bool}
    (at_call : s.server = .up listenfd work)
    (runs : acceptNext host s listenfd ok work = some after) :
    HandshakeStep host s (.serve ok) after := by
  cases work with
  | accept | undefined clifd peer => cases runs
  | stat clifd peer =>
    simp only [acceptNext] at runs
    split at runs
    · rename_i missing
      rw [← Option.some.inj runs]
      refine .refuses listenfd clifd _ peer _ at_call rfl fun works b here => ?_
      cases ok with
      | false => exact absurd rfl works
      | true =>
        rw [if_pos rfl, here] at missing
        cases missing
    · rename_i b found
      obtain ⟨-, here⟩ := Option.ite_none_right_eq_some.mp found
      split at runs
      · rename_i code refused
        rw [← Option.some.inj runs]
        refine .refuses listenfd clifd _ peer _ at_call rfl fun _ b' here' => ?_
        rw [here] at here'
        rw [← Option.some.inj here', refused]
        exact nofun
      · rw [← Option.some.inj runs]
        exact .looks listenfd clifd peer b at_call here
  | time clifd peer b =>
    simp only [acceptNext] at runs
    split at runs
    · rename_i old
      rw [← Option.some.inj runs]
      exact .refuses listenfd clifd _ peer _ at_call rfl old
    · split at runs
      · rename_i undefined
        rw [← Option.some.inj runs]
        exact .unread listenfd clifd peer b at_call undefined
      · rename_i pid read
        rw [← Option.some.inj runs]
        exact .reads listenfd clifd peer b pid at_call read
  | unlink clifd peer pid uid =>
    rw [← Option.some.inj runs]
    cases ok with
    | false => exact .accepts listenfd clifd peer pid uid s.files at_call .refl
    | true => exact .accepts listenfd clifd peer pid uid _ at_call .remove

/-! #### The calls of a client -/

theorem cliConn_step {thread : Thread} {project : Byte} {fd : Option Fd}
    (runs : handshakeExec host s (.cliConn thread project fd) = some after) :
    HandshakeStep host s event after := by
  obtain ⟨idle, runs⟩ := Option.ite_none_right_eq_some.mp runs
  cases fd with
  | none => exact Option.some.inj runs ▸ .stays host s event
  | some fd =>
    obtain ⟨fresh, same⟩ := Option.ite_none_left_eq_some.mp runs
    rw [← Option.some.inj same]
    exact .opens thread fd _ idle (fun used => fresh (.inl used)) (.inl ⟨project, rfl⟩)

theorem conn_step {thread : Thread} {ok : Bool} {perm : ℕ}
    (runs : handshakeExec host s (.conn thread ok perm) = some after) :
    HandshakeStep host s event after := by
  simp only [handshakeExec] at runs
  split at runs
  · rename_i at_call
    exact connNext_step at_call runs
  · rename_i fd at_error
    rw [← Option.some.inj runs]
    exact .closes thread fd (congrArg Stage.fd at_error)
  all_goals cases runs

theorem check_step {thread : Thread} {fd : Option Fd}
    (runs : handshakeExec host s (.check thread fd) = some after) : HandshakeStep host s event after := by
  obtain ⟨idle, runs⟩ := Option.ite_none_right_eq_some.mp runs
  cases fd with
  | none => exact Option.some.inj runs ▸ .stays host s event
  | some fd =>
    obtain ⟨fresh, same⟩ := Option.ite_none_left_eq_some.mp runs
    rw [← Option.some.inj same]
    exact .opens thread fd _ idle (fun used => fresh (.inl used)) (.inr rfl)

theorem checkNext_step {thread : Thread} {ok : Bool}
    (runs : handshakeExec host s (.checkNext thread ok) = some after) :
    HandshakeStep host s event after := by
  simp only [handshakeExec] at runs
  split at runs
  · rename_i fd at_check
    split at runs
    · obtain ⟨-, same⟩ := Option.ite_none_right_eq_some.mp runs
      rw [← Option.some.inj same]
      exact .checks thread fd at_check
    · rw [← Option.some.inj runs]
      exact .fails thread _ fd (congrArg Stage.fd at_check) (.inr rfl)
  · rename_i fd checked
    rw [← Option.some.inj runs]
    exact .closes thread fd (congrArg Stage.fd checked)
  all_goals cases runs

/-! #### The calls of the server -/

theorem servListen_step {fd : Option Fd} (runs : handshakeExec host s (.servListen fd) = some after) :
    HandshakeStep host s event after := by
  obtain ⟨off, runs⟩ := Option.ite_none_right_eq_some.mp runs
  cases fd with
  | none => exact Option.some.inj runs ▸ .stays host s event
  | some fd =>
    obtain ⟨fresh, same⟩ := Option.ite_none_left_eq_some.mp runs
    rw [← Option.some.inj same]
    exact .starts fd off fun used => fresh (.inl used)

theorem listen_step {ok : Bool} {perm : ℕ} (runs : handshakeExec host s (.listen ok perm) = some after) :
    HandshakeStep host s event after := by
  simp only [handshakeExec] at runs
  split at runs
  · rename_i at_call
    exact listenNext_step at_call runs
  · rename_i fd at_error
    rw [← Option.some.inj runs]
    exact .stops fd at_error
  all_goals cases runs

theorem accept_step {clifd : Option Fd} (runs : handshakeExec host s (.accept clifd) = some after) :
    HandshakeStep host s event after := by
  simp only [handshakeExec] at runs
  split at runs
  · rename_i listenfd up
    split at runs
    · exact Option.some.inj runs ▸ .stays host s event
    · cases runs
    · rename_i clifd peer rest waiting
      obtain ⟨fresh, same⟩ := Option.ite_none_left_eq_some.mp runs
      rw [← Option.some.inj same]
      exact .takes listenfd clifd peer rest up waiting fun used => fresh (.inl used)
  · cases runs

theorem serve_step {ok : Bool} (runs : handshakeExec host s (.serve ok) = some after) :
    HandshakeStep host s (.serve ok) after := by
  simp only [handshakeExec] at runs
  split at runs
  · rename_i up
    exact acceptNext_step up runs
  · cases runs

/-! #### Every step -/

/-- A file that another program makes. -/
theorem place_step {path : Path} {statbuf : Statbuf} (allowed : OwnNames host s (.place path statbuf))
    (runs : handshakeExec host s (.place path statbuf) = some after) :
    HandshakeStep host s event after := by
  rw [← Option.some.inj runs]
  refine .outside s.now _ le_rfl (.update ?_)
  intro b placed pid project named
  rw [← Option.some.inj placed]
  exact allowed pid project named

/-- **Every step is one of these.** -/
theorem handshake_step (allowed : OwnNames host s event)
    (runs : handshakeExec host s event = some after) : HandshakeStep host s event after := by
  cases event with
  | cliConn => exact cliConn_step runs
  | conn => exact conn_step runs
  | check => exact check_step runs
  | checkNext => exact checkNext_step runs
  | close pid fd =>
    obtain ⟨has, same⟩ := Option.ite_none_right_eq_some.mp runs
    rw [← Option.some.inj same]
    exact .drops pid fd has
  | servListen => exact servListen_step runs
  | listen => exact listen_step runs
  | accept => exact accept_step runs
  | serve => exact serve_step runs
  | closeAccepted clifd =>
    obtain ⟨has, same⟩ := Option.ite_none_right_eq_some.mp runs
    rw [← Option.some.inj same]
    exact .dropsAccepted clifd has
  | other path =>
    obtain ⟨-, same⟩ := Option.ite_none_right_eq_some.mp runs
    rw [← Option.some.inj same]
    exact .others path
  | place => exact place_step allowed runs
  | remove path =>
    rw [← Option.some.inj runs]
    exact .outside s.now _ le_rfl .remove
  | tick =>
    rw [← Option.some.inj runs]
    exact .outside (s.now + 1) s.files (Nat.le_succ s.now) .refl

end Steps

end Aple.ClientServer
