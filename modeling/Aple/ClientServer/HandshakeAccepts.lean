/-
**A client that is left alone is accepted.**

* `touched` — the name of the file that a step can change; `files_untouched`.
* `Untouched` — until the `k`-th connection has its verdict only `serv_accept` changes its file;
  `StatWorks` — it can look at the file; `LeftAlone` — the condition of a run.
* `LeftWaiting` — the file is as it was, or the connection has been accepted; `LeftWaiting.step`.
* **`untouched_accepted`** — so it is accepted, with its process and its user.
-/

import Aple.ClientServer.HandshakeSafe
import Aple.Lib.Budget

namespace Aple.ClientServer

open Aple.Lib System

variable {Thread : Type} [DecidableEq Thread] {host : Host Thread} {s after : Handshake Thread}
  {event : HandshakeEvent Thread}

/-! ### What a step can change -/

section Touched

/-- The name of the file that a step can change. -/
def touched (host : Host Thread) (s : Handshake Thread) : HandshakeEvent Thread → Option Path
  | .conn thread _ _ =>
    match s.stage thread with
    | .conn .last _ _ => none
    | .conn _ _ project => some (clientPath (host.pid thread) project)
    | _ => none
  | .listen _ _ => some host.name
  | .serve _ =>
    match s.server with
    | .up _ (.unlink _ peer _ _) => some (host.sunPath peer)
    | _ => none
  | .place path _ | .remove path => some path
  | _ => none

omit [DecidableEq Thread] in
theorem setFile_other {path path' : Path} {file : Option Statbuf} (other : path' ≠ path) :
    (s.setFile path' file).files path = s.files path :=
  Function.update_of_ne (Ne.symm other) ..

theorem connNext_files {thread : Thread} {call : NameCall} {fd : Fd} {project : Byte} {ok : Bool}
    {perm : ℕ} (runs : connNext host s thread call fd project ok perm = some after) {path : Path}
    (other : call = .last ∨ clientPath (host.pid thread) project ≠ path) :
    after.files path = s.files path := by
  cases call <;> cases ok
  case unlink.true =>
    rw [← Option.some.inj runs]
    exact setFile_other (other.resolve_left nofun)
  case bind.true | chmod.true =>
    obtain ⟨-, same⟩ := Option.ite_none_right_eq_some.mp runs
    rw [← Option.some.inj same]
    exact setFile_other (other.resolve_left nofun)
  case last.true =>
    obtain ⟨-, same⟩ := Option.ite_none_right_eq_some.mp runs
    rw [← Option.some.inj same]
    rfl
  all_goals
    rw [← Option.some.inj runs]
    rfl

omit [DecidableEq Thread] in
theorem listenNext_files {call : NameCall} {fd : Fd} {ok : Bool} {perm : ℕ}
    (runs : listenNext host s call fd ok perm = some after) {path : Path} (other : host.name ≠ path) :
    after.files path = s.files path := by
  cases call <;> cases ok
  case unlink.true =>
    rw [← Option.some.inj runs]
    exact setFile_other other
  case bind.true | chmod.true =>
    obtain ⟨-, same⟩ := Option.ite_none_right_eq_some.mp runs
    rw [← Option.some.inj same]
    exact setFile_other other
  all_goals
    rw [← Option.some.inj runs]
    rfl

omit [DecidableEq Thread] in
theorem acceptNext_files {listenfd : Fd} {work : Work Thread} {ok : Bool}
    (runs : acceptNext host s listenfd ok work = some after) {path : Path}
    (other : ∀ clifd peer pid uid, work = .unlink clifd peer pid uid → host.sunPath peer ≠ path) :
    after.files path = s.files path := by
  cases work with
  | accept | undefined => cases runs
  | stat clifd peer =>
    simp only [acceptNext] at runs
    split at runs
    · rw [← Option.some.inj runs]
      rfl
    · split at runs <;>
      · rw [← Option.some.inj runs]
        rfl
  | time clifd peer b =>
    simp only [acceptNext] at runs
    split at runs
    · rw [← Option.some.inj runs]
      rfl
    · split at runs <;>
      · rw [← Option.some.inj runs]
        rfl
  | unlink clifd peer pid uid =>
    rw [← Option.some.inj runs]
    cases ok with
    | false => rfl
    | true => exact setFile_other (other clifd peer pid uid rfl)

/-- **Every other file stays.** -/
theorem files_untouched {event : HandshakeEvent Thread} (runs : handshakeExec host s event = some after)
    {path : Path} (other : touched host s event ≠ some path) : after.files path = s.files path := by
  have differs : ∀ {path'}, touched host s event = some path' → path' ≠ path :=
    fun is same => other (same ▸ is)
  cases event with
  | cliConn thread project fd | check thread fd =>
    obtain ⟨-, runs⟩ := Option.ite_none_right_eq_some.mp runs
    cases fd with
    | none => rw [Option.some.inj runs]
    | some fd =>
      obtain ⟨-, same⟩ := Option.ite_none_left_eq_some.mp runs
      rw [← Option.some.inj same]
      rfl
  | servListen fd =>
    obtain ⟨-, runs⟩ := Option.ite_none_right_eq_some.mp runs
    cases fd with
    | none => rw [Option.some.inj runs]
    | some fd =>
      obtain ⟨-, same⟩ := Option.ite_none_left_eq_some.mp runs
      rw [← Option.some.inj same]
      rfl
  | conn thread ok perm =>
    simp only [handshakeExec] at runs
    split at runs
    · rename_i call fd project at_call
      apply connNext_files runs
      cases call
      case last => exact .inl rfl
      all_goals
        refine .inr (differs ?_)
        simp only [touched, at_call]
    · rw [← Option.some.inj runs]
      rfl
    all_goals cases runs
  | checkNext thread ok =>
    simp only [handshakeExec] at runs
    split at runs
    · split at runs
      · obtain ⟨-, same⟩ := Option.ite_none_right_eq_some.mp runs
        rw [← Option.some.inj same]
        rfl
      · rw [← Option.some.inj runs]
        rfl
    · rw [← Option.some.inj runs]
      rfl
    all_goals cases runs
  | listen ok perm =>
    simp only [handshakeExec] at runs
    split at runs
    · exact listenNext_files runs (differs rfl)
    · rw [← Option.some.inj runs]
      rfl
    all_goals cases runs
  | accept clifd =>
    simp only [handshakeExec] at runs
    split at runs
    · split at runs
      · rw [Option.some.inj runs]
      · cases runs
      · obtain ⟨-, same⟩ := Option.ite_none_left_eq_some.mp runs
        rw [← Option.some.inj same]
        rfl
    · cases runs
  | serve ok =>
    simp only [handshakeExec] at runs
    split at runs
    · rename_i up
      apply acceptNext_files runs
      rintro clifd peer pid uid rfl
      apply differs
      simp only [touched, up]
    · cases runs
  | close | closeAccepted | other =>
    obtain ⟨-, same⟩ := Option.ite_none_right_eq_some.mp runs
    rw [← Option.some.inj same]
    rfl
  | place | remove =>
    rw [← Option.some.inj runs]
    exact setFile_other (differs rfl)
  | tick => rw [← Option.some.inj runs]

/-- The clock does not go back. -/
theorem HandshakeStep.now_le (step : HandshakeStep host s event after) : s.now ≤ after.now := by
  cases step with
  | outside now files later => exact later
  | _ => exact le_rfl

theorem Statbuf.IsStale.mono {b : Statbuf} {now later : ℕ} (le : now ≤ later) (old : b.IsStale now) :
    b.IsStale later := by
  unfold Statbuf.IsStale at old ⊢
  dsimp only at old ⊢
  omega

end Touched

/-! ### The verdict -/

section Verdict

variable {k : ℕ} {thread : Thread} {project : Byte} {fd : Fd} {b : Statbuf}

/-- Until a connection has its verdict, only `serv_accept` changes a file of this name, and does so for
this connection. -/
def Untouched (host : Host Thread) (path : Path) (k : ℕ) (s : Handshake Thread)
    (event : HandshakeEvent Thread) : Prop :=
  touched host s event = some path →
    k < s.verdicts.length ∨ (k = s.verdicts.length ∧ ∃ ok, event = .serve ok)

/-- The `stat` with which `serv_accept` looks at a connection does not fail by itself. -/
def StatWorks (k : ℕ) (s : Handshake Thread) (event : HandshakeEvent Thread) : Prop :=
  s.verdicts.length = k → ∀ listenfd clifd peer, s.server = .up listenfd (.stat clifd peer) →
    event ≠ .serve false

/-- The condition of the run. -/
structure LeftAlone (host : Host Thread) (path : Path) (k : ℕ) (s : Handshake Thread)
    (event : HandshakeEvent Thread) : Prop where
  own : OwnNames host s event
  untouched : Untouched host path k s event
  works : StatWorks k s event

/-- **The connection was accepted, or its file is as it was.** -/
structure LeftWaiting (host : Host Thread) (k : ℕ) (peer : Peer Thread) (b : Statbuf) (s : Handshake Thread) :
    Prop where
  inv : HandshakeInv host s
  arrived : s.connected[k]? = some peer
  file : s.verdicts.length ≤ k → s.files (host.sunPath peer) = some b
  seen : ∀ listenfd clifd p b', s.server = .up listenfd (.time clifd p b') → s.verdicts.length = k →
    b' = b
  judged : ∀ v, s.verdicts[k]? = some v → v.1 = peer ∧ v.2.leaked = none

omit [DecidableEq Thread] in
/-- The connection that is looked at is the next one to get a verdict. -/
theorem HandshakeInv.taken_is (inv : HandshakeInv host s) {clifd : Fd} {peer : Peer Thread}
    (taken : s.server.taken = some (clifd, peer)) : s.connected[s.verdicts.length]? = some peer := by
  have length : (s.verdicts.map Prod.fst).length = s.verdicts.length := List.length_map ..
  rw [inv.arrivals, Handshake.waiting, taken, List.getElem?_append_right length.le, length, Nat.sub_self]
  rfl

theorem HandshakeStep.verdicts_le (step : HandshakeStep host s event after) :
    s.verdicts.length ≤ after.verdicts.length := by
  obtain ⟨done, new, -, given, -⟩ := waiting_cases step
  have length := congrArg List.length given
  rw [List.length_append, List.length_map, List.length_map] at length
  omega

/-- The step with which `serv_accept` removes a file gives the verdict. -/
theorem serve_touches {ok : Bool} {path : Path} (touches : touched host s (.serve ok) = some path)
    (runs : handshakeExec host s (.serve ok) = some after) :
    after.verdicts.length = s.verdicts.length + 1 := by
  simp only [touched] at touches
  split at touches
  · rename_i up
    simp only [handshakeExec, up] at runs
    rw [← Option.some.inj runs]
    cases ok
    · exact List.length_append
    · exact List.length_append
  · cases touches

theorem LeftWaiting.file_step {peer : Peer Thread} (waits : LeftWaiting host k peer b s)
    (alone : LeftAlone host (host.sunPath peer) k s event)
    (runs : handshakeExec host s event = some after) (left : after.verdicts.length ≤ k) :
    after.files (host.sunPath peer) = some b := by
  have before := (handshake_step alone.own runs).verdicts_le
  by_cases touches : touched host s event = some (host.sunPath peer)
  · rcases alone.untouched touches with given | ⟨now, ok, rfl⟩
    · omega
    · have length := serve_touches touches runs
      omega
  · rw [files_untouched runs touches]
    exact waits.file (before.trans left)

omit [DecidableEq Thread] in
/-- Its file is what the server sees. -/
theorem LeftWaiting.stat (waits : LeftWaiting host k (.conn thread project fd) b s)
    (left : s.verdicts.length ≤ k) : s.files.stat (clientPath (host.pid thread) project) = some b := by
  rw [Files.stat, if_neg clientPath_ne_nil]
  exact waits.file left

omit [DecidableEq Thread] in
/-- **It is not refused.** -/
theorem LeftWaiting.not_refused (waits : LeftWaiting host k (.conn thread project fd) b s)
    (good : b.refusal = none) (young : ¬ b.IsStale s.now) (works : StatWorks k s event) {listenfd clifd : Fd} {work : Work Thread}
    {peer : Peer Thread} (up : s.server = .up listenfd work) (taken : work.taken = some (clifd, peer))
    (refused : work.Refused host s event) : s.verdicts.length ≠ k := by
  intro now
  have is := waits.inv.taken_is ((congrArg Listener.taken up).trans taken)
  rw [now, waits.arrived] at is
  obtain rfl := Option.some.inj is
  cases work with
  | accept | unlink | undefined => exact refused
  | stat clifd' peer' =>
    obtain ⟨-, rfl⟩ := Prod.mk.inj (Option.some.inj taken)
    exact refused (works now _ _ _ up) b (waits.stat now.le) good
  | time clifd' peer' b' =>
    rw [← waits.seen _ _ _ _ up now] at young
    exact young refused

theorem LeftWaiting.judged_step (waits : LeftWaiting host k (.conn thread project fd) b s)
    (good : b.refusal = none) (young : ¬ b.IsStale s.now) (works : StatWorks k s event)
    (step : HandshakeStep host s event after) {v : Peer Thread × Verdict}
    (given : after.verdicts[k]? = some v) : v.1 = .conn thread project fd ∧ v.2.leaked = none := by
  have judge : ∀ {u}, (s.verdicts ++ [u])[k]? = some v →
      (v.1 = .conn thread project fd ∧ v.2.leaked = none) ∨ (s.verdicts.length = k ∧ u = v) := by
    intro u given
    rcases Nat.lt_trichotomy k s.verdicts.length with before | now | later
    · rw [List.getElem?_append_left before] at given
      exact .inl (waits.judged v given)
    · rw [now, List.getElem?_concat_length] at given
      exact .inr ⟨now.symm, Option.some.inj given⟩
    · rw [List.getElem?_eq_none (by rw [List.length_append]; exact later)] at given
      cases given
  cases step with
  | refuses listenfd clifd work peer code up taken refused =>
    rcases judge given with before | ⟨now, -⟩
    · exact before
    · exact absurd now (waits.not_refused good young works up taken refused)
  | accepts listenfd clifd peer pid uid files up =>
    rcases judge given with before | ⟨now, rfl⟩
    · exact before
    · have is := waits.inv.taken_is (congrArg Listener.taken up)
      rw [now, waits.arrived] at is
      exact ⟨(Option.some.inj is).symm, rfl⟩
  | _ => exact waits.judged v given

theorem LeftWaiting.seen_step (waits : LeftWaiting host k (.conn thread project fd) b s)
    (step : HandshakeStep host s event after) {listenfd clifd : Fd} {peer : Peer Thread} {b' : Statbuf}
    (up : after.server = .up listenfd (.time clifd peer b')) (now : after.verdicts.length = k) :
    b' = b := by
  cases step with
  | starts => cases up
  | stops => cases up
  | listens files server kept own before free =>
    rw [show server = _ from up] at free
    cases free
  | takes | refuses | accepts | reads | unread =>
    cases (Listener.up.inj up).2
  | looks listenfd' clifd' peer' b'' before found =>
    obtain ⟨rfl, same⟩ := Listener.up.inj up
    obtain ⟨rfl, rfl, rfl⟩ := Work.time.inj same
    have is := waits.inv.taken_is (congrArg Listener.taken before)
    rw [show s.verdicts.length = k from now, waits.arrived] at is
    obtain rfl := Option.some.inj is
    exact Option.some.inj (found.symm.trans (waits.stat (Nat.le_of_eq now)))
  | _ => exact waits.seen listenfd clifd peer b' up now

/-- **One step.** -/
theorem LeftWaiting.step (waits : LeftWaiting host k (.conn thread project fd) b s) (good : b.refusal = none)
    (young : ¬ b.IsStale s.now)
    (alone : LeftAlone host (clientPath (host.pid thread) project) k s event)
    (runs : handshakeExec host s event = some after) :
    LeftWaiting host k (.conn thread project fd) b after := by
  have step := handshake_step alone.own runs
  refine ⟨waits.inv.step step, ?_, fun left => waits.file_step alone runs left,
    fun _ _ _ _ => waits.seen_step step, fun v given => waits.judged_step good young alone.works step given⟩
  obtain ⟨done, new, -, -, connected, -⟩ := waiting_cases step
  rw [connected, List.getElem?_append_left (List.getElem?_eq_some_iff.mp waits.arrived).1]
  exact waits.arrived

/-- **A client that is left alone is accepted.** Nobody puts a file of another user at the name of a
client. When a connection of `cli_conn` waits in the queue, its file is a socket with the mode
`rwx------`, nobody else changes a file of that name, the `stat` of the server works, and the file does
not get older than the server allows, then the verdict, if it is there, is that it is accepted, with the
process and the user of the client. -/
theorem untouched_accepted {events : List (HandshakeEvent Thread)} (reached :
      ReachableBy (handshakeSystem host) (OwnNames host) s)
    (arrived : s.connected[k]? = some (.conn thread project fd))
    (waits : s.verdicts.length + s.server.taken.toList.length ≤ k)
    (file : s.files (clientPath (host.pid thread) project) = some b) (good : b.refusal = none)
    (run : RunBy (handshakeSystem host) (LeftAlone host (clientPath (host.pid thread) project) k) s events
      after)
    (young : ¬ b.IsStale after.now) {v : Peer Thread × Verdict} (given : after.verdicts[k]? = some v) :
    ∃ clifd, v = (.conn thread project fd,
      .accepted clifd (host.pid thread) (host.uid (host.pid thread))) := by
  have inv := (handshakeInv_of_reachable reached).1
  have start : LeftWaiting host k (.conn thread project fd) b s := by
    refine ⟨inv, arrived, fun _ => file, ?_, ?_⟩
    · intro listenfd clifd p b' up now
      rw [up] at waits
      simp only [Listener.taken, Work.taken, Option.toList_some, List.length_singleton] at waits
      omega
    · intro v given
      have before := (List.getElem?_eq_some_iff.mp given).1
      omega
  have whole : b.IsStale after.now ∨ LeftWaiting host k (.conn thread project fd) b after := by
    refine run.invariant (fun _ m => b.IsStale m.now ∨ LeftWaiting host k (.conn thread project fd) b m)
      (.inr start) ?_
    rintro - event middle next (old | waits) alone runs
    · exact .inl (old.mono (handshake_step alone.own runs).now_le)
    · by_cases old : b.IsStale middle.now
      · exact .inl (old.mono (handshake_step alone.own runs).now_le)
      · exact .inr (waits.step good old alone runs)
  have last := whole.resolve_left young
  obtain ⟨is, kept⟩ := last.judged v given
  obtain ⟨peer, verdict⟩ := v
  obtain rfl : peer = _ := is
  cases verdict with
  | refused code clifd => cases kept
  | accepted clifd pid uid =>
    obtain ⟨user, process⟩ := last.inv.verdicts _ _ _ _ (List.mem_of_getElem? given)
    refine ⟨clifd, ?_⟩
    rw [show pid = _ from process, show uid = _ from user]

theorem oneAccept_runs : ((runEvents (handshakeExec oneClient) (.start 5 fun _ => none) oneConnect).bind
    fun s => (runEvents (handshakeExec oneClient) s oneAccept).map fun t => decide
      (s.connected[0]? = some (.conn () 97 3) ∧ s.verdicts.length + s.server.taken.toList.length ≤ 0 ∧
        s.files (clientPath 42 97) = some (.bound 1000 cliPerm 5) ∧ t.now = 5 ∧
        t.verdicts[0]? = some (.conn () 97 3, .accepted 4 42 1000))) = some true := by
  decide +kernel

theorem untouched_accepted_one : ∃ s after : Handshake Unit, s.connected[0]? = some (.conn () 97 3) ∧
    ∃ v, after.verdicts[0]? = some v ∧ ∃ clifd, v = (.conn () 97 3, .accepted clifd (42 : Pid) 1000) := by
  obtain ⟨s, connects, runs⟩ := Option.bind_eq_some_iff.mp oneAccept_runs
  obtain ⟨after, accepts, data⟩ := Option.map_eq_some_iff.mp runs
  obtain ⟨arrived, waits, file, now, given⟩ := of_decide_eq_true data
  refine ⟨s, after, arrived, _, given, ?_⟩
  refine untouched_accepted (oneConnect_reaches (List.subset_append_left _ _) connects) arrived waits file
    (by decide) (.of_run (fun _ _ _ => id) ?_ accepts) (by rw [now]; decide) given
  intro event member state
  refine ⟨?_, fun touches => ?_, ?_⟩
  · cases event with
    | place path statbuf => exact absurd member (by simp [oneAccept])
    | _ => trivial
  · cases event with
    | serve ok => exact (Nat.eq_zero_or_pos state.verdicts.length).symm.imp id fun none => ⟨none.symm, ok, rfl⟩
    | accept clifd => cases touches
    | _ => exact absurd member (by simp [oneAccept])
  · rintro - _ _ _ - rfl
    simp [oneAccept] at member

end Verdict

end Aple.ClientServer
