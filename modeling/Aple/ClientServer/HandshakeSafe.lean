/-
**Who made a connection.**

* `Peer.UserIs`, `Peer.ProcessIs` — the user and the process of a connection.
* `HandshakeInv` — the files of the connections that wait are their own, and what the server found out
  so far is right; `HandshakeInv.step`.
* `DescriptorInv` — who has the descriptors; `DescriptorInv.step`.
* **`handshake_identifies`** — in every interleaving.
-/

import Aple.ClientServer.HandshakeSteps
import Aple.Lib.Ledger

namespace Aple.ClientServer

open Aple.Lib System

variable {Thread : Type} [DecidableEq Thread] {host : Host Thread} {s after : Handshake Thread}
  {event : HandshakeEvent Thread}

/-! ### Who it is -/

section Identity

/-- The user of a connection; one without a name has none. -/
def Peer.UserIs (host : Host Thread) (uid : Uid) : Peer Thread → Prop
  | .conn thread _ _ => uid = host.uid (host.pid thread)
  | .check _ => False
  | .other _ => True

/-- The process of a connection. -/
def Peer.ProcessIs (host : Host Thread) (pid : ℤ) : Peer Thread → Prop
  | .conn thread _ _ => pid = host.pid thread
  | .check _ | .other _ => True

/-- What `serv_accept` found out so far is right, and only a name of another program has no process. -/
def Work.Right (host : Host Thread) : Work Thread → Prop
  | .accept | .stat _ _ => True
  | .time _ peer statbuf => peer.UserIs host statbuf.stUid
  | .unlink _ peer pid uid => peer.UserIs host uid ∧ peer.ProcessIs host pid
  | .undefined _ peer => ∃ path, peer = .other path

/-- The connections that are made and have no verdict. -/
def Handshake.waiting (s : Handshake Thread) : List (Peer Thread) :=
  (s.server.taken.map Prod.snd).toList ++ s.queue

/-- **Every connection is what it is taken for.** -/
structure HandshakeInv (host : Host Thread) (s : Handshake Thread) : Prop where
  named : ∀ thread call fd project, s.stage thread = .conn call fd project →
    call = .chmod ∨ call = .last → Named host s.files (host.pid thread) project
  waiting : ∀ thread project fd, .conn thread project fd ∈ s.waiting →
    Named host s.files (host.pid thread) project
  work : ∀ listenfd work, s.server = .up listenfd work → work.Right host
  verdicts : ∀ peer clifd pid uid, (peer, .accepted clifd pid uid) ∈ s.verdicts →
    peer.UserIs host uid ∧ peer.ProcessIs host pid
  arrivals : s.connected = s.verdicts.map Prod.fst ++ s.waiting

omit [DecidableEq Thread] in
theorem Named.keep {before files : Files} (kept : OwnerKept host before files) {pid : Pid}
    {project : Byte} (named : Named host before pid project) : Named host files pid project := by
  refine ⟨named.1, fun b here => ?_⟩
  rcases kept pid project b here with own | ⟨b', there, same⟩
  · exact own
  · exact same ▸ named.2 b' there

theorem HandshakeStep.ownerKept (step : HandshakeStep host s event after) :
    OwnerKept host s.files after.files := by
  cases step with
  | outside _ _ _ kept | names _ _ _ _ _ _ _ kept _ | listens _ _ kept | accepts _ _ _ _ _ _ _ kept =>
    exact kept
  | _ => exact .refl

theorem goTo_self (s : Handshake Thread) (thread : Thread) (stage : Stage) :
    (s.goTo thread stage).stage thread = stage :=
  Function.update_self ..

theorem goTo_of_ne {thread thread' : Thread} (other : thread ≠ thread') (stage : Stage) :
    (s.goTo thread' stage).stage thread = s.stage thread :=
  Function.update_of_ne other ..

theorem goTo_cases {thread thread' : Thread} {stage here : Stage}
    (is : (s.goTo thread' stage).stage thread = here) :
    (thread = thread' ∧ stage = here) ∨ s.stage thread = here := by
  by_cases same : thread = thread'
  · subst same
    exact .inl ⟨rfl, (goTo_self s thread stage).symm.trans is⟩
  · exact .inr ((goTo_of_ne same stage).symm.trans is)

theorem named_step (inv : HandshakeInv host s) (step : HandshakeStep host s event after) {thread : Thread}
    {call : NameCall} {fd : Fd} {project : Byte} (here : after.stage thread = .conn call fd project)
    (bound : call = .chmod ∨ call = .last) :
    Named host after.files (host.pid thread) project := by
  have kept := step.ownerKept
  have old : s.stage thread = .conn call fd project → Named host after.files (host.pid thread) project :=
    fun before => (inv.named thread call fd project before bound).keep kept
  have first : call ≠ .unlink ∧ call ≠ .bind := by
    rcases bound with rfl | rfl
    · exact ⟨nofun, nofun⟩
    · exact ⟨nofun, nofun⟩
  cases step with
  | names thread' call' next fd' project' files at_call _ ready =>
    rcases goTo_cases here with ⟨rfl, same⟩ | before
    · obtain ⟨rfl, rfl, rfl⟩ := Stage.conn.inj same
      rcases ready with rfl | ⟨-, named⟩ | ⟨rfl, rfl⟩
      · exact absurd rfl first.2
      · exact named
      · exact (inv.named thread .chmod fd' project' at_call (.inl rfl)).keep kept
    · exact old before
  | opens thread' fd' stage idle fresh starts =>
    rcases goTo_cases here with ⟨rfl, rfl⟩ | before
    · rcases starts with ⟨project', same⟩ | same
      · exact absurd (Stage.conn.inj same).1 first.1
      · cases same
    · exact old before
  | fails thread' stage fd' holds ends =>
    rcases goTo_cases here with ⟨rfl, rfl⟩ | before
    · rcases ends with same | same
      · cases same
      · cases same
    · exact old before
  | connects thread' | checks thread' | closes thread' =>
    rcases goTo_cases here with ⟨rfl, same⟩ | before
    · cases same
    · exact old before
  | _ => exact old here

/-- **What a step does to the connections**: a new one comes to the end, and the first one gets a
verdict. -/
theorem waiting_cases (step : HandshakeStep host s event after) : ∃ done new,
    s.waiting ++ new = done ++ after.waiting ∧
    after.verdicts.map Prod.fst = s.verdicts.map Prod.fst ++ done ∧
    after.connected = s.connected ++ new ∧
    ∀ thread project fd, .conn thread project fd ∈ new → s.stage thread = .conn .last fd project := by
  cases step with
  | connects thread fd project at_call =>
    refine ⟨[], [.conn thread project fd], List.append_assoc .., (List.append_nil _).symm, rfl, ?_⟩
    intro thread' project' fd' member
    obtain ⟨rfl, rfl, rfl⟩ := Peer.conn.inj (List.mem_singleton.mp member)
    exact at_call
  | checks thread fd at_call =>
    refine ⟨[], [.check thread], List.append_assoc .., (List.append_nil _).symm, rfl, ?_⟩
    intro thread' project' fd' member
    cases List.mem_singleton.mp member
  | others path =>
    refine ⟨[], [.other path], List.append_assoc .., (List.append_nil _).symm, rfl, ?_⟩
    intro thread' project' fd' member
    cases List.mem_singleton.mp member
  | refuses listenfd clifd work peer code up taken =>
    refine ⟨[peer], [], ?_, List.map_append, (List.append_nil _).symm, fun _ _ _ => nofun⟩
    rw [Handshake.waiting, up, Listener.taken, taken, List.append_nil]
    rfl
  | accepts listenfd clifd peer pid uid files up =>
    refine ⟨[peer], [], ?_, List.map_append, (List.append_nil _).symm, fun _ _ _ => nofun⟩
    rw [Handshake.waiting, up, List.append_nil]
    rfl
  | takes listenfd clifd peer rest up waiting fresh =>
    refine ⟨[], [], ?_, (List.append_nil _).symm, (List.append_nil _).symm, fun _ _ _ => nofun⟩
    rw [Handshake.waiting, up, waiting, List.append_nil]
    rfl
  | looks _ _ _ _ up | reads _ _ _ _ _ up | unread _ _ _ _ up | starts _ up | stops _ up =>
    refine ⟨[], [], ?_, (List.append_nil _).symm, (List.append_nil _).symm, fun _ _ _ => nofun⟩
    rw [Handshake.waiting, up, List.append_nil]
    rfl
  | listens files server kept own before now =>
    refine ⟨[], [], ?_, (List.append_nil _).symm, (List.append_nil _).symm, fun _ _ _ => nofun⟩
    rw [Handshake.waiting, before, List.append_nil, Handshake.waiting, Handshake.toServer, now]
    rfl
  | _ =>
    exact ⟨[], [], List.append_nil _, (List.append_nil _).symm, (List.append_nil _).symm,
      fun _ _ _ => nofun⟩

theorem waiting_step (inv : HandshakeInv host s) (step : HandshakeStep host s event after) {thread : Thread}
    {project : Byte} {fd : Fd} (here : .conn thread project fd ∈ after.waiting) :
    Named host after.files (host.pid thread) project := by
  obtain ⟨done, new, moved, -, -, connects⟩ := waiting_cases step
  have member := List.mem_append_right done here
  rw [← moved] at member
  rcases List.mem_append.mp member with before | arrives
  · exact (inv.waiting thread project fd before).keep step.ownerKept
  · have at_call := connects thread project fd arrives
    exact (inv.named thread .last fd project at_call (.inr rfl)).keep step.ownerKept

theorem arrivals_step (inv : HandshakeInv host s) (step : HandshakeStep host s event after) :
    after.connected = after.verdicts.map Prod.fst ++ after.waiting := by
  obtain ⟨done, new, moved, given, connected, -⟩ := waiting_cases step
  calc after.connected
      _ = s.connected ++ new := connected
      _ = s.verdicts.map Prod.fst ++ (s.waiting ++ new) := by rw [inv.arrivals, List.append_assoc]
      _ = s.verdicts.map Prod.fst ++ done ++ after.waiting := by rw [moved, List.append_assoc]
      _ = after.verdicts.map Prod.fst ++ after.waiting := by rw [given]

omit [DecidableEq Thread] in
/-- The connection that is looked at has its own file. -/
theorem taken_named (inv : HandshakeInv host s) {listenfd clifd fd : Fd} {work : Work Thread}
    {thread : Thread} {project : Byte} (up : s.server = .up listenfd work)
    (taken : work.taken = some (clifd, .conn thread project fd)) :
    Named host s.files (host.pid thread) project := by
  apply inv.waiting thread project fd
  rw [Handshake.waiting, up, Listener.taken, taken]
  exact List.mem_append_left _ (List.mem_singleton.mpr rfl)

theorem work_step (inv : HandshakeInv host s) (step : HandshakeStep host s event after) {listenfd : Fd}
    {work : Work Thread} (here : after.server = .up listenfd work) : work.Right host := by
  cases step with
  | starts => cases here
  | stops => cases here
  | listens files server kept own before now =>
    have free : work.taken = none := (congrArg Listener.taken here).symm.trans now
    cases work with
    | accept => trivial
    | stat | time | unlink | undefined => cases free
  | takes | refuses | accepts =>
    obtain ⟨rfl, rfl⟩ := Listener.up.inj here
    trivial
  | looks listenfd' clifd peer b up found =>
    obtain ⟨rfl, rfl⟩ := Listener.up.inj here
    cases peer with
    | conn thread project fd =>
      have named := taken_named inv up rfl
      rw [Files.stat, Host.sunPath, if_neg clientPath_ne_nil] at found
      exact named.2 b found
    | check thread =>
      rw [Files.stat, Host.sunPath, if_pos rfl] at found
      cases found
    | other path => trivial
  | reads listenfd' clifd peer b pid up read =>
    obtain ⟨rfl, rfl⟩ := Listener.up.inj here
    refine ⟨inv.work _ _ up, ?_⟩
    cases peer with
    | conn thread project fd =>
      have named := taken_named inv up rfl
      rw [Host.sunPath, readPid_clientPath named.1] at read
      exact (Option.some.inj read).symm
    | check thread => trivial
    | other path => trivial
  | unread listenfd' clifd peer b up undefined =>
    obtain ⟨rfl, rfl⟩ := Listener.up.inj here
    have user := inv.work _ _ up
    cases peer with
    | conn thread project fd =>
      have named := taken_named inv up rfl
      rw [Host.sunPath, readPid_clientPath named.1] at undefined
      cases undefined
    | check thread => exact user.elim
    | other path => exact ⟨path, rfl⟩
  | _ => exact inv.work listenfd work here

theorem verdicts_step (inv : HandshakeInv host s) (step : HandshakeStep host s event after)
    {peer : Peer Thread} {clifd : Fd} {pid : ℤ} {uid : Uid}
    (here : (peer, .accepted clifd pid uid) ∈ after.verdicts) :
    peer.UserIs host uid ∧ peer.ProcessIs host pid := by
  cases step with
  | refuses =>
    rcases List.mem_append.mp here with before | new
    · exact inv.verdicts peer clifd pid uid before
    · cases List.mem_singleton.mp new
  | accepts listenfd clifd' peer' pid' uid' files up =>
    rcases List.mem_append.mp here with before | new
    · exact inv.verdicts peer clifd pid uid before
    · cases List.mem_singleton.mp new
      exact inv.work _ _ up
  | _ => exact inv.verdicts peer clifd pid uid here

/-- **One step.** -/
theorem HandshakeInv.step (inv : HandshakeInv host s) (step : HandshakeStep host s event after) :
    HandshakeInv host after where
  named _ _ _ _ := named_step inv step
  waiting _ _ _ := waiting_step inv step
  work _ _ := work_step inv step
  verdicts _ _ _ _ := verdicts_step inv step
  arrivals := arrivals_step inv step

end Identity

/-! ### Who has the descriptors -/

section Descriptors

/-- A call in a process has this descriptor. -/
def ClientHolds (host : Host Thread) (stage : Thread → Stage) (pid : Pid) (fd : Fd) : Prop :=
  ∃ thread, host.pid thread = pid ∧ (stage thread).fd = some fd

/-- The descriptors of the connections that were refused. -/
def Handshake.leaked (s : Handshake Thread) : List Fd := s.verdicts.filterMap (·.2.leaked)

/-- The descriptors of the server that nobody got from it. -/
def Handshake.serverHeld (s : Handshake Thread) : List Fd :=
  s.server.own.toList ++ ((s.server.taken.map Prod.fst).toList ++ s.leaked)

/-- **Every open descriptor** was returned, or a call under way has it, or it leaked. -/
structure DescriptorInv (host : Host Thread) (s : Handshake Thread) : Prop where
  client : ∀ pid, Ledger (s.fds pid) (s.handed pid) (ClientHolds host s.stage pid)
  single : ∀ thread thread' fd, host.pid thread = host.pid thread' → (s.stage thread).fd = some fd →
    (s.stage thread').fd = some fd → thread = thread'
  server : Ledger s.serverFds s.serverHanded (· ∈ s.serverHeld)
  nodup : s.serverHeld.Nodup

omit [DecidableEq Thread] in
theorem DescriptorInv.start (now : ℕ) (files : Files) : DescriptorInv host (.start now files) where
  client pid := ⟨fun fd => iff_of_false (Finset.notMem_empty fd) (by rintro (none | ⟨_, _, none⟩) <;> cases none),
    fun fd _ => Finset.notMem_empty fd⟩
  single _ _ _ _ := nofun
  server := ⟨fun fd => iff_of_false (Finset.notMem_empty fd) (by rintro (none | none) <;> cases none),
    fun fd _ => Finset.notMem_empty fd⟩
  nodup := .nil

/-! #### Clients -/

variable {thread : Thread} {stage : Stage} {x : Fd} {pid : Pid}

/-- A thread keeps its descriptor. -/
theorem holds_same (same : stage.fd = (s.stage thread).fd) (pid : Pid) (fd : Fd) :
    ClientHolds host (s.goTo thread stage).stage pid fd ↔ ClientHolds host s.stage pid fd := by
  refine exists_congr fun other => and_congr_right fun _ => ?_
  by_cases is : other = thread
  · rw [is, goTo_self, same]
  · rw [goTo_of_ne is]

/-- A thread gets a descriptor. -/
theorem holds_open (before : (s.stage thread).fd = none) (now : stage.fd = some x) (pid : Pid) (fd : Fd) :
    ClientHolds host (s.goTo thread stage).stage pid fd ↔
      ClientHolds host s.stage pid fd ∨ (host.pid thread = pid ∧ fd = x) := by
  constructor
  · rintro ⟨other, at_pid, has⟩
    by_cases is : other = thread
    · rw [is, goTo_self, now] at has
      exact .inr ⟨is ▸ at_pid, (Option.some.inj has).symm⟩
    · rw [goTo_of_ne is] at has
      exact .inl ⟨other, at_pid, has⟩
  · rintro (⟨other, at_pid, has⟩ | ⟨at_pid, rfl⟩)
    · refine ⟨other, at_pid, ?_⟩
      have is : other ≠ thread := by
        rintro rfl
        rw [before] at has
        cases has
      rwa [goTo_of_ne is]
    · refine ⟨thread, at_pid, ?_⟩
      rw [goTo_self, now]

/-- A thread gives its descriptor up. -/
theorem holds_close (inv : DescriptorInv host s) (before : (s.stage thread).fd = some x)
    (now : stage.fd = none) (pid : Pid) (fd : Fd) :
    ClientHolds host (s.goTo thread stage).stage pid fd ↔
      ClientHolds host s.stage pid fd ∧ ¬ (host.pid thread = pid ∧ fd = x) := by
  constructor
  · rintro ⟨other, at_pid, has⟩
    by_cases is : other = thread
    · rw [is, goTo_self, now] at has
      cases has
    · rw [goTo_of_ne is] at has
      refine ⟨⟨other, at_pid, has⟩, ?_⟩
      rintro ⟨rfl, rfl⟩
      exact is (inv.single other thread fd at_pid has before)
  · rintro ⟨⟨other, at_pid, has⟩, apart⟩
    refine ⟨other, at_pid, ?_⟩
    have is : other ≠ thread := by
      rintro rfl
      rw [before] at has
      exact apart ⟨at_pid, (Option.some.inj has).symm⟩
    rwa [goTo_of_ne is]

/-- No two threads of a process have one descriptor, if what they get is new. -/
theorem single_goTo (inv : DescriptorInv host s)
    (fresh : ∀ fd, stage.fd = some fd → (s.stage thread).fd = some fd ∨ fd ∉ s.fds (host.pid thread))
    {thread' other : Thread} {fd : Fd} (same : host.pid thread' = host.pid other)
    (has : ((s.goTo thread stage).stage thread').fd = some fd)
    (has' : ((s.goTo thread stage).stage other).fd = some fd) : thread' = other := by
  have alone : ∀ t, t ≠ thread → host.pid t = host.pid thread → (s.stage t).fd = some fd →
      stage.fd ≠ some fd := by
    intro t ne at_pid holds now
    rcases fresh fd now with before | new
    · exact ne (inv.single t thread fd at_pid holds before)
    · exact new (((inv.client _).mem fd).mpr (.inr ⟨t, at_pid, holds⟩))
  by_cases is : thread' = thread <;> by_cases is' : other = thread
  · exact is.trans is'.symm
  · subst is
    rw [goTo_self] at has
    rw [goTo_of_ne is'] at has'
    exact absurd has (alone other is' same.symm has')
  · subst is'
    rw [goTo_of_ne is] at has
    rw [goTo_self] at has'
    exact absurd has' (alone thread' is same has)
  · rw [goTo_of_ne is] at has
    rw [goTo_of_ne is'] at has'
    exact inv.single thread' other fd same has has'

theorem client_step (inv : DescriptorInv host s) (step : HandshakeStep host s event after) (pid : Pid) :
    Ledger (after.fds pid) (after.handed pid) (ClientHolds host after.stage pid) := by
  cases step with
  | names thread call next fd project files at_call =>
    have same : (Stage.conn next fd project).fd = (s.stage thread).fd := by
      rw [at_call]
      rfl
    exact (inv.client pid).congr (holds_same same pid)
  | fails thread stage fd holds ends =>
    have same : stage.fd = (s.stage thread).fd := by
      rw [holds]
      rcases ends with rfl | rfl
      · rfl
      · rfl
    exact (inv.client pid).congr (holds_same same pid)
  | checks thread fd at_call =>
    have same : (Stage.checked fd).fd = (s.stage thread).fd := by
      rw [at_call]
      rfl
    exact (inv.client pid).congr (holds_same same pid)
  | opens thread fd stage idle fresh first =>
    have before : (s.stage thread).fd = none := congrArg Stage.fd idle
    have now : stage.fd = some fd := by
      rcases first with ⟨project, rfl⟩ | rfl
      · rfl
      · rfl
    have holds : ∀ y, ClientHolds host (s.goTo thread stage).stage pid y ↔ _ :=
      holds_open before now pid
    simp only [Handshake.goTo, Handshake.openClient]
    by_cases is : host.pid thread = pid
    · subst is
      rw [Function.update_self]
      exact (inv.client _).opens fresh fun y => (holds y).trans (or_congr_right (and_iff_right rfl))
    · rw [Function.update_of_ne (Ne.symm is)]
      exact (inv.client pid).congr fun y => (holds y).trans (or_iff_left fun new => is new.1)
  | connects thread fd project at_call =>
    have before : (s.stage thread).fd = some fd := congrArg Stage.fd at_call
    have holds : ∀ y, ClientHolds host (s.goTo thread .idle).stage pid y ↔ _ :=
      holds_close inv before rfl pid
    simp only [Handshake.goTo, Handshake.hand, Handshake.connect]
    by_cases is : host.pid thread = pid
    · subst is
      rw [Function.update_self]
      exact (inv.client _).hands ⟨thread, rfl, before⟩ fun y =>
        (holds y).trans (and_congr_right' (not_congr (and_iff_right rfl)))
    · rw [Function.update_of_ne (Ne.symm is)]
      exact (inv.client pid).congr fun y => (holds y).trans (and_iff_left fun new => is new.1)
  | closes thread fd before =>
    have holds : ∀ y, ClientHolds host (s.goTo thread .idle).stage pid y ↔ _ :=
      holds_close inv before rfl pid
    simp only [Handshake.goTo, Handshake.closeClient]
    by_cases is : host.pid thread = pid
    · subst is
      rw [Function.update_self]
      exact (inv.client _).closes ⟨thread, rfl, before⟩ fun y =>
        (holds y).trans (and_congr_right' (not_congr (and_iff_right rfl)))
    · rw [Function.update_of_ne (Ne.symm is)]
      exact (inv.client pid).congr fun y => (holds y).trans (and_iff_left fun new => is new.1)
  | drops at_pid fd has =>
    simp only [Handshake.closeClient]
    by_cases is : pid = at_pid
    · subst is
      rw [Function.update_self, Function.update_self]
      exact (inv.client pid).drops has
    · rw [Function.update_of_ne is, Function.update_of_ne is]
      exact inv.client pid
  | _ => exact inv.client pid

theorem single_step (inv : DescriptorInv host s) (step : HandshakeStep host s event after)
    {thread other : Thread} {fd : Fd} (same : host.pid thread = host.pid other)
    (has : (after.stage thread).fd = some fd) (has' : (after.stage other).fd = some fd) :
    thread = other := by
  cases step with
  | names at_thread call next fd' project files at_call =>
    refine single_goTo inv (fun x now => .inl ?_) same has has'
    rw [at_call]
    exact now
  | fails at_thread stage fd' holds ends =>
    refine single_goTo inv (fun x now => .inl ?_) same has has'
    rw [holds]
    rcases ends with rfl | rfl
    · exact now
    · exact now
  | checks at_thread fd' at_call =>
    refine single_goTo inv (fun x now => .inl ?_) same has has'
    rw [at_call]
    exact now
  | opens at_thread fd' stage idle fresh first =>
    refine single_goTo inv (fun x now => .inr ?_) same has has'
    have new : stage.fd = some fd' := by
      rcases first with ⟨project, rfl⟩ | rfl
      · rfl
      · rfl
    rwa [← Option.some.inj (new.symm.trans now)]
  | connects | closes =>
    refine single_goTo inv (fun x now => ?_) same has has'
    cases now
  | _ => exact inv.single thread other fd same has has'

/-! #### The server -/

omit [DecidableEq Thread] in
/-- What is held changes its order only. -/
theorem DescriptorInv.server_perm (inv : DescriptorInv host s) {held : List Fd}
    (perm : held.Perm s.serverHeld) :
    Ledger s.serverFds s.serverHanded (· ∈ held) ∧ held.Nodup :=
  ⟨inv.server.congr fun _ => perm.mem_iff, perm.nodup_iff.mpr inv.nodup⟩

omit [DecidableEq Thread] in
/-- The server gets a descriptor. -/
theorem DescriptorInv.server_opens (inv : DescriptorInv host s) {held : List Fd}
    (fresh : x ∉ s.serverFds) (perm : held.Perm (x :: s.serverHeld)) :
    Ledger (insert x s.serverFds) s.serverHanded (· ∈ held) ∧ held.Nodup := by
  have new : x ∉ s.serverHeld := fun member => fresh ((inv.server.mem x).mpr (.inr member))
  refine ⟨inv.server.opens fresh fun y => ?_, perm.nodup_iff.mpr (inv.nodup.cons new)⟩
  rw [perm.mem_iff, List.mem_cons, or_comm]

/-- A descriptor that is held once is the only one that goes. -/
theorem held_rest {held rest : List Fd} (perm : held.Perm (x :: rest)) (nodup : held.Nodup) :
    x ∈ held ∧ (∀ y, y ∈ rest ↔ y ∈ held ∧ y ≠ x) ∧ rest.Nodup := by
  obtain ⟨new, others⟩ := List.nodup_cons.mp (perm.nodup_iff.mp nodup)
  refine ⟨perm.mem_iff.mpr List.mem_cons_self, fun y => ?_, others⟩
  rw [perm.mem_iff, List.mem_cons]
  constructor
  · exact fun member => ⟨.inr member, fun same => new (same ▸ member)⟩
  · rintro ⟨same | member, other⟩
    · exact absurd same other
    · exact member

theorem server_step (inv : DescriptorInv host s) (step : HandshakeStep host s event after) :
    Ledger after.serverFds after.serverHanded (· ∈ after.serverHeld) ∧ after.serverHeld.Nodup := by
  cases step with
  | starts fd off fresh =>
    apply inv.server_opens fresh
    rw [Handshake.serverHeld, Handshake.serverHeld, off]
    exact .refl _
  | stops fd at_error =>
    have held : s.serverHeld = fd :: s.leaked := by
      rw [Handshake.serverHeld, at_error]
      rfl
    obtain ⟨has, rest, nodup⟩ := held_rest (.of_eq held) inv.nodup
    exact ⟨inv.server.closes has rest, nodup⟩
  | listens files server kept own before now =>
    apply inv.server_perm
    rw [Handshake.serverHeld, Handshake.serverHeld, before, ← own, Handshake.toServer]
    dsimp only
    rw [now]
    exact .refl _
  | takes listenfd clifd peer rest up waiting fresh =>
    apply inv.server_opens fresh
    rw [Handshake.serverHeld, Handshake.serverHeld, up]
    exact .swap ..
  | looks _ _ _ _ up | reads _ _ _ _ _ up | unread _ _ _ _ up =>
    apply inv.server_perm
    rw [Handshake.serverHeld, Handshake.serverHeld, up]
    exact .refl _
  | refuses listenfd clifd work peer code up taken =>
    apply inv.server_perm
    have held : s.serverHeld = listenfd :: clifd :: s.leaked := by
      rw [Handshake.serverHeld, up, Listener.taken, taken]
      rfl
    have leaked : (s.judge listenfd peer (.refused code clifd)).leaked = s.leaked ++ [clifd] :=
      List.filterMap_append
    rw [held, Handshake.serverHeld, leaked]
    exact (List.perm_append_singleton clifd s.leaked).cons listenfd
  | accepts listenfd clifd peer pid uid files up =>
    have held : s.serverHeld.Perm (clifd :: listenfd :: s.leaked) := by
      rw [Handshake.serverHeld, up]
      exact .swap ..
    obtain ⟨has, rest, nodup⟩ := held_rest held inv.nodup
    have leaked : (s.judge listenfd peer (.accepted clifd pid uid)).leaked = s.leaked := by
      rw [Handshake.leaked, Handshake.judge, List.filterMap_append]
      exact List.append_nil _
    have now : (s.judge listenfd peer (.accepted clifd pid uid)).serverHeld = listenfd :: s.leaked := by
      rw [Handshake.serverHeld, leaked]
      rfl
    rw [← now] at rest nodup
    exact ⟨inv.server.hands has rest, nodup⟩
  | dropsAccepted clifd has => exact ⟨inv.server.drops has, inv.nodup⟩
  | _ => exact ⟨inv.server, inv.nodup⟩

/-- **One step.** -/
theorem DescriptorInv.step (inv : DescriptorInv host s) (step : HandshakeStep host s event after) :
    DescriptorInv host after where
  client := client_step inv step
  single _ _ _ := single_step inv step
  server := (server_step inv step).1
  nodup := (server_step inv step).2

end Descriptors

/-! ### The protocol -/

section Protocol

omit [DecidableEq Thread] in
theorem HandshakeInv.start (now : ℕ) (files : Files) : HandshakeInv host (.start now files) where
  named _ _ _ _ := nofun
  waiting _ _ _ := nofun
  work _ _ := nofun
  verdicts _ _ _ _ := nofun
  arrivals := rfl

theorem handshakeInv_of_reachable (reached : ReachableBy (handshakeSystem host) (OwnNames host) s) :
    HandshakeInv host s ∧ DescriptorInv host s := by
  refine reached.invariant (fun s => HandshakeInv host s ∧ DescriptorInv host s) ?_ ?_
  · rintro _ ⟨now, files, rfl⟩
    exact ⟨.start now files, .start now files⟩
  · rintro s event after - ⟨inv, fds⟩ allowed runs
    have step := handshake_step allowed runs
    exact ⟨inv.step step, fds.step step⟩

/-- **Connections are identified, and no client loses a descriptor.** In every run in which nobody puts
a file of another user at the name of a client:
* what `serv_accept` accepts from `cli_conn` has the process and the user of the caller, it accepts
  nothing from `client_check_unix_socket`, and only a name that another program bound can be one in
  which there is no number to read;
* every connection gets one verdict, in the order in which they were made;
* the open descriptors of a process are those that `cli_conn` returned and nobody closed, and those of
  the calls under way;
* each connection that is refused leaves the server an open descriptor that it has not returned. -/
theorem handshake_identifies (reached : ReachableBy (handshakeSystem host) (OwnNames host) s) :
    (∀ peer clifd (pid : ℤ) uid, (peer, .accepted clifd pid uid) ∈ s.verdicts →
      (∀ thread project fd, peer = .conn thread project fd →
        pid = host.pid thread ∧ uid = host.uid (host.pid thread)) ∧
      ∀ thread, peer ≠ .check thread) ∧
    (∀ listenfd clifd peer, s.server = .up listenfd (.undefined clifd peer) →
      ∃ path, peer = .other path) ∧
    s.connected =
      s.verdicts.map Prod.fst ++ ((s.server.taken.map Prod.snd).toList ++ s.queue) ∧
    (∀ pid fd, fd ∈ s.fds pid ↔ fd ∈ s.handed pid ∨
      ∃ thread, host.pid thread = pid ∧ (s.stage thread).fd = some fd) ∧
    s.leaked.Nodup ∧ ∀ fd ∈ s.leaked, fd ∈ s.serverFds ∧ fd ∉ s.serverHanded := by
  obtain ⟨inv, fds⟩ := handshakeInv_of_reachable reached
  have held : ∀ fd ∈ s.leaked, fd ∈ s.serverHeld := fun fd member =>
    List.mem_append_right _ (List.mem_append_right _ member)
  refine ⟨?_, fun listenfd clifd peer up => inv.work _ _ up, inv.arrivals, fun pid => (fds.client pid).mem,
    ?_, fun fd member => ⟨(fds.server.mem fd).mpr (.inr (held fd member)),
      fds.server.apart fd (held fd member)⟩⟩
  · intro peer clifd pid uid accepted
    obtain ⟨user, process⟩ := inv.verdicts peer clifd pid uid accepted
    refine ⟨?_, ?_⟩
    · rintro thread project fd rfl
      exact ⟨process, user⟩
    · rintro thread rfl
      exact user
  · exact (List.nodup_append.mp (List.nodup_append.mp fds.nodup).2.1).2.1

/-- A client of process 42. -/
def oneClient : Host Unit where
  pid _ := 42
  uid _ := 1000
  name := [slash, 115]
  serverUid := 0
  apart pid project same := by
    have long := congrArg List.length same
    rw [clientPath_eq, List.length_append] at long
    simp only [cliPath, List.length_cons, List.length_nil] at long
    omega

/-- The server starts, and the client connects. -/
def oneConnect : List (HandshakeEvent Unit) :=
  [.servListen (some 3), .listen true 0, .listen true 0o755, .listen true 0, .listen true 0,
    .cliConn () 97 (some 3), .conn () false 0, .conn () true 0o755, .conn () true 0, .conn () true 0]

/-- `serv_accept` runs to its end. -/
def oneAccept : List (HandshakeEvent Unit) := [.accept (some 4), .serve true, .serve true, .serve true]

theorem oneHandshake_accepts : ((runEvents (handshakeExec oneClient) (.start 5 fun _ => none)
    (oneConnect ++ oneAccept)).map fun s => s.verdicts) =
    some [(.conn () 97 3, .accepted 4 42 1000)] := by
  decide +kernel

theorem oneConnect_reaches {events : List (HandshakeEvent Unit)} {s : Handshake Unit}
    (part : events ⊆ oneConnect ++ oneAccept)
    (runs : runEvents (handshakeExec oneClient) (.start 5 fun _ => none) events = some s) :
    ReachableBy (handshakeSystem oneClient) (OwnNames oneClient) s := by
  have start : ReachableBy (handshakeSystem oneClient) (OwnNames oneClient) (.start 5 fun _ => none) :=
    .start ⟨5, _, rfl⟩
  refine start.run_all (fun _ _ _ => id) ?_ runs
  intro event member state
  cases event with
  | place path statbuf => exact absurd (part member) (by simp [oneConnect, oneAccept])
  | _ => trivial

theorem handshake_identifies_one : ∃ s : Handshake Unit,
    (.conn () 97 3, .accepted 4 42 1000) ∈ s.verdicts ∧ (42 : ℤ) = oneClient.pid () := by
  obtain ⟨s, runs, verdicts⟩ := Option.map_eq_some_iff.mp oneHandshake_accepts
  have accepted : (.conn () 97 3, .accepted 4 42 1000) ∈ s.verdicts := by
    rw [verdicts]
    exact List.mem_singleton.mpr rfl
  have reached := oneConnect_reaches (List.Subset.refl _) runs
  exact ⟨s, accepted, (((handshake_identifies reached).1 _ _ _ _ accepted).1 () 97 3 rfl).1⟩

end Protocol

end Aple.ClientServer
