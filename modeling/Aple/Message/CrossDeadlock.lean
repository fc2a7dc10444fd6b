/-
**Crossing synchronous sends.**

* `Committed` — a thread is behind the drain of a `SendSyncMessage` that is not completed: nothing
  but its peer gets it on.
* `uncrossedStep` — the condition on a run: no thread enqueues while its peer is committed.
* `Nested`, `Quiet` — what may run on top of what, and the sections that leave the waiting senders
  waiting.
* `CrossInv` — the invariant: the locks are held by the activities on the stacks, a thread that
  waits for its semaphore has its call on top, and the two never do both.
* **`no_deadlock_when_uncrossed`** — then the threads are never both blocked. `crossed_run` is the
  other half: after a step that breaks the condition neither call ever returns; `crossing_deadlocks`
  and `nested_send_deadlocks` are two runs.
-/

import Aple.Message.CrossSend

namespace Aple.Message

open Aple.Lib

/-! ### The condition -/

/-- The call on top of the stack is behind its drain, and its semaphore was not posted. -/
def Committed (s : CrossState) (x : Side) (call : SyncCall) (rest : List Activity) : Prop :=
  ∃ pc : SendPc, s.stack x = .send call pc :: rest ∧ pc.pastDrain = true ∧
    (pc.sent = true → s.semPosts x call.addr = 0)

/-- No thread enqueues while its peer is committed. -/
def uncrossedStep (s : CrossState) : CrossEvent → Prop
  | .turn x => ∀ call rest, s.stack x = .send call .enqueue :: rest →
    ∀ call' rest', ¬ Committed s x.peer call' rest'
  | _ => True

/-! ### Stacks -/

@[simp] theorem Side.peer_peer (x : Side) : x.peer.peer = x := by cases x <;> rfl

theorem Side.peer_ne (x : Side) : x.peer ≠ x := by cases x <;> decide

theorem Side.eq_peer {x y : Side} (differs : y ≠ x) : y = x.peer := by
  cases x <;> cases y <;> first | rfl | exact absurd rfl differs

/-- What an activity was started from: a procedure starts functions, the drain loop dispatches
synchronous messages. -/
def StartedFrom : Activity → Activity → Prop
  | .dispatch source _, .send _ .drain => source.isSync = true
  | .send .., .dispatch .. => True
  | .post .., .dispatch .. => True
  | _, _ => False

/-- Every activity was started from the one below it. -/
abbrev Nested (stack : List Activity) : Prop := stack.IsChain StartedFrom

/-- The messages that are being dispatched, the innermost first. -/
def messages (stack : List Activity) : List (Source × Msg) :=
  stack.filterMap fun
    | .dispatch source pMsg => some (source, pMsg)
    | _ => none

/-- The queue whose lock an activity holds. -/
def Activity.locks (x : Side) : Activity → Option Side
  | .send _ .drain => some x
  | .send _ .unlockOwn => some x
  | .send _ .enqueue => some x.peer
  | .send _ .unlockPeer => some x.peer
  | .post queue _ .write => some queue
  | .post queue _ (.unlock _) => some queue
  | _ => none

/-- A call of a function, in contrast to a dispatch. -/
def Activity.isCall : Activity → Bool
  | .dispatch .. => false
  | _ => true

/-- How often the activities of a stack hold a lock. -/
def lockCount (x queue : Side) (stack : List Activity) : ℕ :=
  stack.countP fun top => top.locks x = some queue

/-- The call on top enqueued the frame at `addr`. -/
def SentTop (stack : List Activity) (addr : Addr) : Prop :=
  ∃ (call : SyncCall) (pc : SendPc) (rest : List Activity),
    stack = .send call pc :: rest ∧ call.addr = addr ∧ pc.sent = true

section Stacks

variable {x queue : Side} {call : SyncCall} {pc : SendPc} {posts : PostCall} {postPc : PostPc}
  {source : Source} {pMsg : Msg} {rest stack : List Activity} {addr : Addr} {top : Activity}

@[simp] theorem messages_send : messages (.send call pc :: rest) = messages rest := rfl

@[simp] theorem messages_post : messages (.post queue posts postPc :: rest) = messages rest := rfl

@[simp] theorem messages_dispatch :
    messages (.dispatch source pMsg :: rest) = (source, pMsg) :: messages rest := rfl

@[simp] theorem lockCount_cons : lockCount x queue (top :: rest) =
    lockCount x queue rest + if top.locks x = some queue then 1 else 0 := by
  unfold lockCount
  rw [List.countP_cons]
  simp only [decide_eq_true_iff]

/-- The top activity goes on to one that holds a lock. -/
theorem lockCount_takes {next : Activity} {target : Side} (unlocked : top.locks x = none)
    (locked : next.locks x = some target) (q : Side) :
    lockCount x q (next :: rest) = lockCount x q (top :: rest) + if target = q then 1 else 0 := by
  rw [lockCount_cons, lockCount_cons, unlocked, locked]
  simp only [Option.some.injEq, reduceCtorEq, if_false, Nat.add_zero]

@[simp] theorem sentTop_nil : ¬ SentTop [] addr := by
  rintro ⟨_, _, _, stands, -⟩
  cases stands

@[simp] theorem sentTop_post : ¬ SentTop (.post queue posts postPc :: rest) addr := by
  rintro ⟨_, _, _, stands, -⟩
  cases stands

@[simp] theorem sentTop_dispatch : ¬ SentTop (.dispatch source pMsg :: rest) addr := by
  rintro ⟨_, _, _, stands, -⟩
  cases stands

@[simp] theorem sentTop_send :
    SentTop (.send call pc :: rest) addr ↔ call.addr = addr ∧ pc.sent = true := by
  constructor
  · rintro ⟨_, _, _, stands, same, sent⟩
    cases stands
    exact ⟨same, sent⟩
  · rintro ⟨same, sent⟩
    exact ⟨call, pc, rest, rfl, same, sent⟩

/-- Code of the application is no call that enqueued something. -/
theorem not_sentTop_of_runsCode (runs : runsCode stack = true) : ¬ SentTop stack addr := by
  cases stack with
  | nil => exact sentTop_nil
  | cons top rest =>
    cases top with
    | dispatch => exact sentTop_dispatch
    | send | post => cases runs

theorem messages_call (isCall : top.isCall = true) : messages (top :: rest) = messages rest := by
  cases top with
  | send | post => rfl
  | dispatch => cases isCall

/-- A call is started from code of the application. -/
theorem nested_call (isCall : top.isCall = true) :
    Nested (top :: rest) ↔ runsCode rest = true ∧ Nested rest := by
  cases rest with
  | nil => exact iff_of_true (.singleton top) ⟨rfl, .nil⟩
  | cons outer rest =>
    rw [Nested, List.isChain_cons_cons]
    refine and_congr_left fun _ => ?_
    cases top with
    | dispatch => cases isCall
    | send | post =>
      cases outer with
      | dispatch => exact iff_of_true trivial rfl
      | send | post => exact iff_of_false id Bool.false_ne_true

theorem below_nested (nested : Nested (top :: rest)) : Nested rest := by
  cases rest with
  | nil => exact .nil
  | cons outer rest => exact (List.isChain_cons_cons.mp nested).2

/-- A procedure is started from the drain loop, or from the message loop. -/
theorem drain_below (nested : Nested (.dispatch source pMsg :: rest)) :
    rest = [] ∨ ∃ call rest', rest = .send call .drain :: rest' := by
  cases rest with
  | nil => exact .inl rfl
  | cons outer rest =>
    have started := (List.isChain_cons_cons.mp nested).1
    cases outer with
    | send call pc =>
      cases pc with
      | drain => exact .inr ⟨call, rest, rfl⟩
      | _ => cases started
    | post | dispatch => cases started

/-- **What holds a lock below the top** is a drain loop that dispatches the message of a sender. -/
theorem dispatches_of_lockCount (nested : Nested (top :: rest))
    (unlocked : top.locks x ≠ some queue)
    (held : 0 < lockCount x queue (top :: rest)) :
    ∃ node pMsg, (.sync node, pMsg) ∈ messages (top :: rest) := by
  induction rest generalizing top with
  | nil =>
    rw [lockCount_cons, if_neg unlocked] at held
    cases held
  | cons outer rest ih =>
    obtain ⟨started, below⟩ := List.isChain_cons_cons.mp nested
    rw [lockCount_cons, if_neg unlocked, Nat.add_zero] at held
    by_cases locked : outer.locks x = some queue
    · cases outer with
      | dispatch => cases locked
      | post => cases top <;> cases started
      | send call pc =>
        cases top with
        | send | post => cases started
        | dispatch source pMsg =>
          have sync : source.isSync = true := by
            cases pc with
            | drain => exact started
            | _ => cases started
          cases source with
          | sync node => exact ⟨node, pMsg, List.mem_cons_self⟩
          | _ => cases sync
    · obtain ⟨node, pMsg, member⟩ := ih below locked held
      refine ⟨node, pMsg, ?_⟩
      cases top with
      | send | post => exact member
      | dispatch => exact List.mem_cons_of_mem _ member

end Stacks

/-! ### Sections of a queue -/

/-- A section that enqueues no sender, and undoes no post. -/
structure Quiet (s after : State) : Prop where
  enqueued : after.enqueued = s.enqueued
  unposted : ∀ addr, (after.world.frames addr).semPosts = 0 → (s.world.frames addr).semPosts = 0

theorem Quiet.refl (s : State) : Quiet s s := ⟨rfl, fun _ unposted => unposted⟩

theorem Quiet.of_frames {s after : State} (enqueued : after.enqueued = s.enqueued)
    (frames : after.world.frames = s.world.frames) : Quiet s after := by
  refine ⟨enqueued, fun addr unposted => ?_⟩
  rw [← frames]
  exact unposted

/-- One turn of the drain loop hands out a synchronous message, if any. -/
theorem drain_section {s after : State} (runs : exec s .drain = some after) :
    Quiet s after ∧ (after.held = s.held ∨
      ∃ node pMsg, after.held = s.held ++ [(.sync node, pMsg)]) := by
  cases execDrain_effect runs with
  | idle => exact ⟨.refl s, .inl rfl⟩
  | took first => exact ⟨.of_frames rfl rfl, .inr ⟨first, _, rfl⟩⟩
  | cleared => exact ⟨.of_frames rfl rfl, .inl rfl⟩

/-- What a pass hands out is one message at most. -/
theorem State.hold_cases (s : State) (outcome : Outcome) (remove : Bool) (pMsg : Msg) :
    s.hold outcome remove pMsg = s ∨
      ∃ source, s.hold outcome remove pMsg = { s with held := s.held ++ [(source, pMsg)] } := by
  unfold hold
  split
  · rename_i source
    cases remove with
    | false => exact .inl rfl
    | true => exact .inr ⟨source, rfl⟩
  · exact .inl rfl

/-- A pass of `PeekMessageEx`. -/
theorem peek_section {s after : State} {env : PeekEnv} {args : PeekArgs} {pMsg : Msg}
    (runs : exec s (.peek env args pMsg) = some after) :
    Quiet s after ∧ (after.held = s.held ∨
      ∃ source pMsg, after.held = s.held ++ [(source, pMsg)]) := by
  cases execPeek_sync runs with
  | took first w _ same => exact ⟨.of_frames rfl same.frames, .inr ⟨.sync first, _, rfl⟩⟩
  | looked w same => exact ⟨.of_frames rfl same.frames, .inl rfl⟩
  | elsewhere outcome afterPass _ _ same =>
    rcases State.hold_cases (s.setWorld afterPass.world) outcome args.remove afterPass.pMsg with
      unheld | ⟨source, one⟩
    · rw [unheld]
      exact ⟨.of_frames rfl same.frames, .inl rfl⟩
    · rw [one]
      exact ⟨.of_frames rfl same.frames, .inr ⟨source, afterPass.pMsg, rfl⟩⟩

theorem dispatchStep_of_isPost (s : State) {event : Event} (posts : isPost event = true) :
    dispatchStep s event := by
  cases event <;> first | exact trivial | cases posts

/-- A function that posts leaves the senders and the messages handed out alone. -/
theorem post_section {s after : State} {event : Event} (posts : isPost event = true)
    (runs : exec s event = some after) : Quiet s after ∧ after.held = s.held := by
  have leaves : leavesSync event = true := by
    cases event <;> first | rfl | cases posts
  have kept := other_sync leaves runs
  exact ⟨.of_frames kept.enqueued kept.world.frames, kept.held⟩

/-- Completing a sender only adds a post. -/
theorem unposted_of_completeSync {pSyncMsg : Ptr} {retval : LResult} {frames : Frames} {addr : Addr}
    (unposted : (completeSync pSyncMsg retval frames addr).semPosts = 0) :
    (frames addr).semPosts = 0 := by
  cases pSyncMsg with
  | none => exact unposted
  | some node =>
    by_cases same : addr = node
    · subst same
      simp [completeSync, Frames.semPost, Frames.setRetval] at unposted
    · rw [(completeSync_some node retval frames).2.2 addr same] at unposted
      exact unposted

/-- The end of a dispatch takes the last message back. -/
theorem dispatch_section {s after : State} {procs : Procs} {result : LResult}
    (runs : exec s (.dispatch (s.held.length - 1) procs result) = some after) :
    Quiet s after ∧ after.held = s.held.dropLast := by
  obtain ⟨source, pMsg, -, rfl⟩ := execDispatch_inv runs
  refine ⟨⟨rfl, fun addr unposted => ?_⟩, List.eraseIdx_length_sub_one⟩
  rcases dispatchMessage_frames procs result pMsg s.world.frames with same | ⟨retval, completed⟩
  · rw [show (dispatchMessage procs result pMsg s.world.frames).2 = _ from same] at unposted
    exact unposted
  · rw [show (dispatchMessage procs result pMsg s.world.frames).2 = _ from completed] at unposted
    exact unposted_of_completeSync unposted

/-- Enqueuing adds one sender, whose semaphore nobody posted. -/
theorem enqueue_section {s after : State} {call : SyncCall} (runs : exec s call.event = some after) :
    after.enqueued = s.enqueued ++ [call.addr] ∧ after.held = s.held ∧
      (after.world.frames call.addr).semPosts = 0 ∧
      ∀ addr, addr ≠ call.addr →
        (after.world.frames addr).semPosts = (s.world.frames addr).semPosts := by
  obtain ⟨-, -, w, returns, rfl⟩ := execSendSync_inv runs
  obtain ⟨filled, spared⟩ := sendSyncMessage_frames returns
  exact ⟨rfl, rfl, filled.semPosts, fun addr differs => (spared addr differs).semPosts⟩

/-- The message loop passes no hidden pointer to the desktop timer. -/
theorem fetch_clean (s : State) (env : PeekEnv) (hWnd : Hwnd) :
    dispatchStep s (.peek env (anyMessage hWnd) { Msg.zero with time := env.tickCounter }) := by
  intro reaches
  have wanted : ∀ message, isMsgWanted (anyMessage hWnd) message = true := fun _ => rfl
  have noSync : ¬ (s.world.queue.has .syncMsg = true ∧ s.world.queue.pFirstSyncMsg ≠ none) := by
    rintro ⟨flagged, listed⟩
    obtain ⟨first, head⟩ := Option.ne_none_iff_exists'.mp listed
    have rejected := reaches.sync flagged first head
    rw [wanted] at rejected
    cases rejected
  unfold leftover leftPosted leftNotify leftSync
  simp only [if_neg noSync]
  repeat' split
  all_goals rfl

/-! ### The invariant -/

/-- A thread whose call is enqueued and not completed. -/
def Outstanding (s : CrossState) (x : Side) : Prop :=
  ∃ addr, SentTop (s.stack x) addr ∧ s.semPosts x addr = 0

/-- Queues of clean runs, well-nested stacks that account for the messages handed out, for the locks
and for the senders that wait, and two threads that are not both outstanding. -/
structure CrossInv (s : CrossState) : Prop where
  queues : ∀ x, queueSystem.ReachableBy dispatchStep (s.queue x)
  nested : ∀ x, Nested (s.stack x)
  held : ∀ x, (s.queue x).held = (messages (s.stack x)).reverse
  locks : ∀ x queue, (s.mutex queue).holds x = lockCount x queue (s.stack x)
  waiting : ∀ x, ∀ addr ∈ (s.queue x.peer).enqueued, s.semPosts x addr = 0 →
    SentTop (s.stack x) addr
  apart : ∀ x, Outstanding s x → ¬ Outstanding s x.peer

theorem initial_crossInv {queue : Side → State} (fresh : ∀ x, queueSystem.init (queue x)) :
    CrossInv (CrossState.initial queue) where
  queues x := .start (fresh x)
  nested x := .nil
  held x := by
    obtain ⟨_, _, _, _, -, eq⟩ := fresh x
    show (queue x).held = []
    rw [eq]
    rfl
  locks x queue := rfl
  waiting x addr member := by
    obtain ⟨_, _, _, _, -, eq⟩ := fresh x.peer
    have member : addr ∈ (queue x.peer).enqueued := member
    rw [eq] at member
    cases member
  apart x := by
    rintro ⟨addr, sent, -⟩
    exact absurd sent sentTop_nil

section Moves

variable {s : CrossState} {x : Side} {top : Activity} {rest stack : List Activity}
  {queue : Side → State} {mutex : Side → Mutex Side} {wait : Side → ℕ}

/-- **One thread moves**, in sections that enqueue nobody: it must not drop its own call. -/
theorem CrossInv.moved (inv : CrossInv s)
    (queues : ∀ y, queueSystem.ReachableBy dispatchStep (queue y))
    (quiet : ∀ y, Quiet (s.queue y) (queue y)) (nested : Nested stack)
    (held : ∀ y, (queue y).held = (messages (Function.update s.stack x stack y)).reverse)
    (locks : ∀ y q, (mutex q).holds y = lockCount y q (Function.update s.stack x stack y))
    (sent : ∀ addr, SentTop stack addr → SentTop (s.stack x) addr)
    (kept : ∀ addr, SentTop (s.stack x) addr → s.semPosts x addr = 0 → SentTop stack addr) :
    CrossInv ⟨queue, mutex, wait, Function.update s.stack x stack⟩ := by
  have unposted : ∀ y addr, ((queue y.peer).world.frames addr).semPosts = 0 →
      s.semPosts y addr = 0 := fun y => (quiet y.peer).unposted
  have outstanding : ∀ y,
      Outstanding ⟨queue, mutex, wait, Function.update s.stack x stack⟩ y → Outstanding s y := by
    rintro y ⟨addr, onTop, open_⟩
    refine ⟨addr, ?_, unposted y addr open_⟩
    by_cases same : y = x
    · subst same
      exact sent addr (by simpa using onTop)
    · simpa [same] using onTop
  constructor
  case queues => exact queues
  case nested =>
    intro y
    by_cases same : y = x
    · subst same
      simpa using nested
    · simpa [same] using inv.nested y
  case held => exact held
  case locks => exact locks
  case waiting =>
    intro y addr member open_
    have before : addr ∈ (s.queue y.peer).enqueued := by
      rw [← (quiet y.peer).enqueued]
      exact member
    have onTop := inv.waiting y addr before (unposted y addr open_)
    by_cases same : y = x
    · subst same
      simpa using kept addr onTop (unposted y addr open_)
    · simpa [same] using onTop
  case apart => exact fun y one other => inv.apart y (outstanding y one) (outstanding y.peer other)

/-- The messages stay on the stack. -/
theorem CrossInv.held_same (inv : CrossInv s) (same : messages stack = messages (s.stack x)) (y : Side) :
    (s.queue y).held = (messages (Function.update s.stack x stack y)).reverse := by
  by_cases mine : y = x
  · subst mine
    rw [Function.update_self, same]
    exact inv.held y
  · rw [Function.update_of_ne mine]
    exact inv.held y

/-- The locks stay. -/
theorem CrossInv.locks_same (inv : CrossInv s)
    (same : ∀ q, lockCount x q stack = lockCount x q (s.stack x)) (y q : Side) :
    (s.mutex q).holds y = lockCount y q (Function.update s.stack x stack y) := by
  by_cases mine : y = x
  · subst mine
    rw [Function.update_self, same]
    exact inv.locks y q
  · rw [Function.update_of_ne mine]
    exact inv.locks y q

/-- The thread takes one more lock. -/
theorem CrossInv.locks_acquire (inv : CrossInv s) {target : Side} {m : Mutex Side}
    (takes : (s.mutex target).acquire x = some m)
    (count : ∀ q, lockCount x q stack = lockCount x q (s.stack x) + if target = q then 1 else 0)
    (y q : Side) : (Function.update s.mutex target m q).holds y =
      lockCount y q (Function.update s.stack x stack y) := by
  have before := inv.locks y q
  have counted := Mutex.holds_acquire takes y
  by_cases mine : y = x <;> by_cases there : q = target
  · subst mine there
    rw [Function.update_self, Function.update_self, count, counted, before, if_pos rfl, if_pos rfl]
  · subst mine
    rw [Function.update_of_ne there, Function.update_self, count, if_neg (Ne.symm there)]
    exact before
  · subst there
    rw [Function.update_self, Function.update_of_ne mine, counted, if_neg (Ne.symm mine)]
    exact before
  · rw [Function.update_of_ne there, Function.update_of_ne mine]
    exact before

/-- The thread gives one lock back. -/
theorem CrossInv.locks_release (inv : CrossInv s) {target : Side}
    (count : ∀ q, lockCount x q stack + (if target = q then 1 else 0) = lockCount x q (s.stack x))
    (y q : Side) : (Function.update s.mutex target (s.mutex target).release q).holds y =
      lockCount y q (Function.update s.stack x stack y) := by
  have before := inv.locks y q
  have held : 0 < (s.mutex target).holds x := by
    rw [inv.locks x target, ← count target, if_pos rfl]
    exact Nat.succ_pos _
  have counted := Mutex.holds_release held y
  by_cases mine : y = x <;> by_cases there : q = target
  · subst mine there
    rw [Function.update_self, Function.update_self]
    rw [if_pos rfl, before, ← count q, if_pos rfl] at counted
    exact Nat.add_right_cancel counted
  · subst mine
    rw [Function.update_of_ne there, Function.update_self]
    rw [← count q, if_neg (Ne.symm there)] at before
    exact before
  · subst there
    rw [Function.update_self, Function.update_of_ne mine]
    rw [if_neg (Ne.symm mine)] at counted
    exact counted.trans before
  · rw [Function.update_of_ne there, Function.update_of_ne mine]
    exact before

/-- The messages of a stack after a section of its own queue. -/
theorem CrossInv.held_own (inv : CrossInv s) {state : State}
    (own : state.held = (messages stack).reverse) (y : Side) :
    (Function.update s.queue x state y).held =
      (messages (Function.update s.stack x stack y)).reverse := by
  by_cases mine : y = x
  · subst mine
    rw [Function.update_self, Function.update_self]
    exact own
  · rw [Function.update_of_ne mine, Function.update_of_ne mine]
    exact inv.held y

/-- The messages after a section that hands nothing out. -/
theorem CrossInv.held_kept (inv : CrossInv s) {target : Side} {state : State}
    (kept : state.held = (s.queue target).held) (same : messages stack = messages (s.stack x))
    (y : Side) : (Function.update s.queue target state y).held =
      (messages (Function.update s.stack x stack y)).reverse := by
  rw [← inv.held_same same y]
  by_cases there : y = target
  · subst there
    rw [Function.update_self]
    exact kept
  · rw [Function.update_of_ne there]

/-- The queues after a section of one of them. -/
theorem CrossInv.queues_update (inv : CrossInv s) {target : Side} {state : State} {event : Event}
    (meets : dispatchStep (s.queue target) event) (runs : exec (s.queue target) event = some state)
    (y : Side) : queueSystem.ReachableBy dispatchStep (Function.update s.queue target state y) := by
  by_cases there : y = target
  · subst there
    rw [Function.update_self]
    exact .next (inv.queues y) meets runs
  · rw [Function.update_of_ne there]
    exact inv.queues y

theorem quiet_update {target : Side} {state : State} (quiet : Quiet (s.queue target) state)
    (y : Side) : Quiet (s.queue y) (Function.update s.queue target state y) := by
  by_cases there : y = target
  · subst there
    rw [Function.update_self]
    exact quiet
  · rw [Function.update_of_ne there]
    exact .refl _

/-- **A call goes on**, to a place where it is enqueued if and only if it was before. -/
theorem CrossInv.advance (inv : CrossInv s) (stands : s.stack x = top :: rest)
    (isCall : top.isCall = true) {next : Activity} (isCall' : next.isCall = true)
    (sent : ∀ addr, SentTop (next :: rest) addr ↔ SentTop (top :: rest) addr)
    (locks : ∀ y q, (mutex q).holds y =
      lockCount y q (Function.update s.stack x (next :: rest) y)) :
    CrossInv ⟨s.queue, mutex, wait, Function.update s.stack x (next :: rest)⟩ := by
  have nested := inv.nested x
  rw [stands] at nested
  refine inv.moved inv.queues (fun y => .refl _)
    ((nested_call isCall').mpr ((nested_call isCall).mp nested)) (inv.held_same ?_) locks ?_ ?_
  · rw [stands, messages_call isCall, messages_call isCall']
  · intro addr onTop
    rw [stands]
    exact (sent addr).mp onTop
  · intro addr onTop _
    rw [stands] at onTop
    exact (sent addr).mpr onTop

/-- **A call returns**, a sender only after it was posted. -/
theorem CrossInv.finish (inv : CrossInv s) (stands : s.stack x = top :: rest)
    (isCall : top.isCall = true)
    (posted : ∀ addr, SentTop (top :: rest) addr → s.semPosts x addr ≠ 0)
    (locks : ∀ y q, (mutex q).holds y = lockCount y q (Function.update s.stack x rest y)) :
    CrossInv ⟨s.queue, mutex, wait, Function.update s.stack x rest⟩ := by
  have nested := inv.nested x
  rw [stands] at nested
  obtain ⟨code, below⟩ := (nested_call isCall).mp nested
  refine inv.moved inv.queues (fun y => .refl _) below (inv.held_same ?_) locks ?_ ?_
  · rw [stands, messages_call isCall]
  · intro addr onTop
    exact absurd onTop (not_sentTop_of_runsCode code)
  · intro addr onTop open_
    rw [stands] at onTop
    exact absurd open_ (posted addr onTop)

/-- **A call starts.** -/
theorem CrossInv.start (inv : CrossInv s) (code : runsCode (s.stack x) = true)
    (isCall : top.isCall = true) (unsent : ∀ addr, ¬ SentTop (top :: s.stack x) addr)
    (unlocked : top.locks x = none) :
    CrossInv ⟨s.queue, s.mutex, s.wait, Function.update s.stack x (top :: s.stack x)⟩ := by
  refine inv.moved inv.queues (fun y => .refl _) ((nested_call isCall).mpr ⟨code, inv.nested x⟩)
    (inv.held_same (messages_call isCall)) (inv.locks_same ?_) ?_ ?_
  · intro q
    rw [lockCount_cons, unlocked, if_neg (by simp), Nat.add_zero]
  · intro addr onTop
    exact absurd onTop (unsent addr)
  · intro addr onTop _
    exact absurd onTop (not_sentTop_of_runsCode code)

end Moves

/-! ### The steps -/

section Steps

variable {s after : CrossState} {x : Side} {rest : List Activity}

theorem handOut_nothing {before after : State} {stack : List Activity}
    (same : after.held = before.held) : handOut before after stack = stack := by
  unfold handOut
  rw [same, List.getElem?_eq_none (Nat.le_refl _)]

theorem handOut_one {before after : State} {stack : List Activity} {source : Source} {pMsg : Msg}
    (one : after.held = before.held ++ [(source, pMsg)]) :
    handOut before after stack = .dispatch source pMsg :: stack := by
  unfold handOut
  rw [one, List.getElem?_concat_length]

/-- **One turn of the drain loop**, with the messages that are handed out. -/
theorem drainTurn_inv (inv : CrossInv s) {call : SyncCall} (stands : s.stack x = .send call .drain :: rest)
    {state : State} (runs : exec (s.queue x) .drain = some state) :
    CrossInv ((s.setQueue x state).setStack x
      (handOut (s.queue x) state (.send call .drain :: rest))) := by
  obtain ⟨quiet, handed⟩ := drain_section runs
  have queues := inv.queues_update (show dispatchStep (s.queue x) .drain from trivial) runs
  have nested := inv.nested x
  have held := inv.held x
  rcases handed with same | ⟨node, pMsg, one⟩
  · rw [handOut_nothing same, ← stands]
    refine inv.moved queues (quiet_update quiet) nested (inv.held_own (same.trans held))
      (inv.locks_same fun _ => rfl) (fun _ onTop => onTop) fun _ onTop _ => onTop
  · rw [handOut_one one, ← stands]
    refine inv.moved queues (quiet_update quiet) ?_ (inv.held_own ?_) (inv.locks_same fun q => ?_)
      (fun addr onTop => absurd onTop sentTop_dispatch) fun addr onTop _ => ?_
    · rw [stands] at nested ⊢
      exact List.isChain_cons_cons.mpr ⟨rfl, nested⟩
    · rw [one, held, messages_dispatch, List.reverse_cons]
    · rw [lockCount_cons, if_neg (by simp [Activity.locks]), Nat.add_zero]
    · rw [stands, sentTop_send] at onTop
      cases onTop.2

/-- **The enqueue**, while the peer is not committed. -/
theorem enqueueTurn_inv (inv : CrossInv s) {call : SyncCall}
    (stands : s.stack x = .send call .enqueue :: rest)
    (uncrossed : ∀ call' rest', ¬ Committed s x.peer call' rest')
    {state : State} (runs : exec (s.queue x.peer) call.event = some state) :
    CrossInv ((s.setQueue x.peer state).setStack x (.send call .unlockPeer :: rest)) := by
  obtain ⟨enqueued, kept, fresh, others⟩ := enqueue_section runs
  have nested := inv.nested x
  rw [stands] at nested
  have unsent : ∀ addr, ¬ SentTop (s.stack x) addr := by
    intro addr onTop
    rw [stands, sentTop_send] at onTop
    cases onTop.2
  have peerStays : ∀ addr,
      ((Function.update s.queue x.peer state x.peer.peer).world.frames addr).semPosts =
        s.semPosts x.peer addr := by
    intro addr
    rw [Function.update_of_ne x.peer.peer_ne]
    rfl
  have uncommitted : ¬ Outstanding s x.peer := by
    rintro ⟨addr, ⟨call', pc, rest', onTop, rfl, sent⟩, unposted⟩
    refine uncrossed call' rest' ⟨pc, onTop, ?_, fun _ => unposted⟩
    cases pc <;> first | rfl | cases sent
  constructor
  case queues =>
    exact inv.queues_update (show dispatchStep (s.queue x.peer) call.event from trivial) runs
  case nested =>
    intro y
    by_cases same : y = x
    · subst same
      show Nested (Function.update s.stack y _ y)
      rw [Function.update_self]
      exact (nested_call rfl).mpr ((nested_call rfl).mp nested)
    · show Nested (Function.update s.stack x _ y)
      rw [Function.update_of_ne same]
      exact inv.nested y
  case held => exact inv.held_kept kept (by rw [stands]; rfl)
  case locks => exact inv.locks_same fun q => by rw [stands]; rfl
  case waiting =>
    intro y addr member unposted
    by_cases same : y = x
    · subst same
      have member : addr ∈ (Function.update s.queue y.peer state y.peer).enqueued := member
      have unposted :
          ((Function.update s.queue y.peer state y.peer).world.frames addr).semPosts = 0 :=
        unposted
      show SentTop (Function.update s.stack y _ y) addr
      rw [Function.update_self] at member unposted ⊢
      refine sentTop_send.mpr ⟨?_, rfl⟩
      by_contra differs
      -- an older frame of this thread that waits would be on top instead of this call
      rw [enqueued, List.mem_append, List.mem_singleton] at member
      rw [others addr (Ne.symm differs)] at unposted
      exact unsent addr (inv.waiting y addr (member.resolve_right (Ne.symm differs)) unposted)
    · obtain rfl := Side.eq_peer same
      have member : addr ∈ (Function.update s.queue x.peer state x.peer.peer).enqueued := member
      rw [Function.update_of_ne x.peer.peer_ne] at member
      show SentTop (Function.update s.stack x _ x.peer) addr
      rw [Function.update_of_ne x.peer_ne]
      exact inv.waiting x.peer addr member ((peerStays addr).symm.trans unposted)
  case apart =>
    -- the peer is not outstanding, whoever of the two is asked
    have settled : ¬ Outstanding ((s.setQueue x.peer state).setStack x
        (.send call .unlockPeer :: rest)) x.peer := by
      rintro ⟨addr, onTop, unposted⟩
      refine uncommitted ⟨addr, ?_, (peerStays addr).symm.trans unposted⟩
      have onTop : SentTop (Function.update s.stack x _ x.peer) addr := onTop
      rw [Function.update_of_ne x.peer_ne] at onTop
      exact onTop
    intro y one other
    by_cases same : y = x
    · subst same
      exact settled other
    · obtain rfl := Side.eq_peer same
      exact settled one

/-- **One step of `SendSyncMessage`.** -/
theorem sendTurn_inv (inv : CrossInv s) {call : SyncCall} {pc : SendPc}
    (stands : s.stack x = .send call pc :: rest)
    (uncrossed : pc = .enqueue → ∀ call' rest', ¬ Committed s x.peer call' rest')
    (runs : sendTurn s x call rest pc = some after) : CrossInv after := by
  have unsent : ∀ {pc pc' : SendPc}, pc.sent = pc'.sent → ∀ addr,
      SentTop (.send call pc' :: rest) addr ↔ SentTop (.send call pc :: rest) addr := by
    intro pc pc' same addr
    rw [sentTop_send, sentTop_send, same]
  cases pc with
  | lockOwn =>
    obtain ⟨m, takes, rfl⟩ := Option.map_eq_some_iff.mp runs
    refine inv.advance stands rfl rfl (unsent rfl) (inv.locks_acquire takes fun q => ?_)
    rw [stands]
    exact lockCount_takes rfl rfl q
  | drain =>
    by_cases flagged : (s.queue x).world.queue.has .syncMsg = true
    · simp only [sendTurn, if_pos flagged] at runs
      obtain ⟨state, drains, rfl⟩ := Option.map_eq_some_iff.mp runs
      exact drainTurn_inv inv stands drains
    · simp only [sendTurn, if_neg flagged] at runs
      obtain rfl := Option.some.inj runs
      refine inv.advance stands rfl rfl (unsent rfl) (inv.locks_same fun q => ?_)
      rw [stands]
      rfl
  | unlockOwn =>
    obtain rfl := Option.some.inj runs
    refine inv.advance stands rfl rfl (unsent rfl) (inv.locks_release fun q => ?_)
    rw [stands]
    exact (lockCount_takes rfl rfl q).symm
  | lockPeer =>
    obtain ⟨m, takes, rfl⟩ := Option.map_eq_some_iff.mp runs
    refine inv.advance stands rfl rfl (unsent rfl) (inv.locks_acquire takes fun q => ?_)
    rw [stands]
    exact lockCount_takes rfl rfl q
  | enqueue =>
    obtain ⟨state, enqueues, rfl⟩ := Option.map_eq_some_iff.mp runs
    exact enqueueTurn_inv inv stands (uncrossed rfl) enqueues
  | unlockPeer =>
    obtain rfl := Option.some.inj runs
    refine inv.advance stands rfl rfl (unsent rfl) (inv.locks_release fun q => ?_)
    rw [stands]
    exact (lockCount_takes rfl rfl q).symm
  | getValue =>
    obtain rfl := Option.some.inj runs
    refine inv.advance stands rfl rfl (unsent rfl) (inv.locks_same fun q => ?_)
    rw [stands]
    rfl
  | post semValue =>
    obtain rfl := Option.some.inj runs
    unfold CrossState.postMsgq
    split
    all_goals
      refine inv.advance stands rfl rfl (unsent rfl) (inv.locks_same fun q => ?_)
      rw [stands]
      rfl
  | semWait =>
    obtain ⟨posted, same⟩ := Option.ite_none_right_eq_some.mp runs
    obtain rfl := Option.some.inj same
    refine inv.finish stands rfl (fun addr onTop => ?_) (inv.locks_same fun q => ?_)
    · obtain ⟨rfl, -⟩ := sentTop_send.mp onTop
      exact Nat.pos_iff_ne_zero.mp posted
    · rw [stands]
      rfl

/-- **One step of a function that posts.** -/
theorem postTurn_inv (inv : CrossInv s) {queue : Side} {call : PostCall} {pc : PostPc}
    (stands : s.stack x = .post queue call pc :: rest)
    (runs : postTurn s x queue call rest pc = some after) : CrossInv after := by
  have unsent : ∀ pc pc' addr, SentTop (.post queue call pc' :: rest) addr ↔
      SentTop (.post queue call pc :: rest) addr := fun _ _ _ =>
    iff_of_false sentTop_post sentTop_post
  have neverSent : ∀ addr, SentTop (.post queue call pc :: rest) addr → s.semPosts x addr ≠ 0 :=
    fun _ onTop => absurd onTop sentTop_post
  cases pc with
  | lock =>
    obtain ⟨m, takes, rfl⟩ := Option.map_eq_some_iff.mp runs
    refine inv.advance stands rfl rfl (unsent _ _) (inv.locks_acquire takes fun q => ?_)
    rw [stands]
    exact lockCount_takes rfl rfl q
  | write =>
    simp only [postTurn] at runs
    split at runs
    · rename_i done state signalled writes
      obtain rfl := Option.some.inj runs
      obtain ⟨quiet, kept⟩ := post_section call.property writes
      have meets := dispatchStep_of_isPost (s.queue queue) call.property
      have nested := inv.nested x
      rw [stands] at nested
      refine inv.moved (inv.queues_update meets writes) (quiet_update quiet)
        ((nested_call rfl).mpr ((nested_call rfl).mp nested)) (inv.held_kept kept ?_)
        (inv.locks_same fun q => ?_) (fun addr onTop => absurd onTop sentTop_post) fun addr onTop _ => ?_
      · rw [stands]
        rfl
      · rw [stands]
        rfl
      · rw [stands] at onTop
        exact absurd onTop sentTop_post
    · cases runs
  | unlock done =>
    obtain rfl := Option.some.inj runs
    split
    · refine inv.advance stands rfl rfl (unsent _ _) (inv.locks_release fun q => ?_)
      rw [stands]
      exact (lockCount_takes rfl rfl q).symm
    · refine inv.finish stands rfl neverSent (inv.locks_release fun q => ?_)
      rw [stands, lockCount_cons]
      show _ = _ + if some queue = some q then 1 else 0
      simp only [Option.some.injEq]
  | getValue =>
    obtain rfl := Option.some.inj runs
    refine inv.advance stands rfl rfl (unsent _ _) (inv.locks_same fun q => ?_)
    rw [stands]
    rfl
  | post semValue =>
    obtain rfl := Option.some.inj runs
    unfold CrossState.postMsgq
    split
    all_goals
      refine inv.finish stands rfl neverSent (inv.locks_same fun q => ?_)
      rw [stands]
      rfl

/-- **The message loop takes a message out.** -/
theorem fetch_inv (inv : CrossInv s) {env : PeekEnv} {hWnd : Hwnd}
    (runs : crossExec s (.fetch x env hWnd) = some after) : CrossInv after := by
  obtain ⟨⟨idle, -⟩, peeks⟩ := Option.ite_none_right_eq_some.mp runs
  obtain ⟨state, fetched, rfl⟩ := Option.map_eq_some_iff.mp peeks
  obtain ⟨quiet, handed⟩ := peek_section fetched
  have stands : s.stack x = [] := List.isEmpty_iff.mp idle
  have queues := inv.queues_update (fetch_clean (s.queue x) env hWnd) fetched
  have held := inv.held x
  rw [stands] at held
  have neverSent : ∀ {addr : Addr} {stack : List Activity}, SentTop (s.stack x) addr →
      s.semPosts x addr = 0 → SentTop stack addr := by
    intro addr stack onTop _
    rw [stands] at onTop
    exact absurd onTop sentTop_nil
  rcases handed with same | ⟨source, pMsg, one⟩
  · rw [handOut_nothing same]
    refine inv.moved queues (quiet_update quiet) .nil (inv.held_own (same.trans held))
      (inv.locks_same fun q => ?_) (fun addr onTop => absurd onTop sentTop_nil)
      fun addr onTop => neverSent onTop
    rw [stands]
  · rw [handOut_one one]
    refine inv.moved queues (quiet_update quiet) (.singleton _) (inv.held_own ?_)
      (inv.locks_same fun q => ?_) (fun addr onTop => absurd onTop sentTop_dispatch)
      fun addr onTop => neverSent onTop
    · rw [one, held]
      rfl
    · rw [stands]
      rfl

/-- **A procedure returns** to whatever dispatched its message. -/
theorem ret_inv (inv : CrossInv s) {procs : Procs} {result : LResult}
    (runs : crossExec s (.ret x procs result) = some after) : CrossInv after := by
  have runs : execRet s x procs result (s.stack x) = some after := runs
  cases stands : s.stack x with
  | nil =>
    rw [stands] at runs
    cases runs
  | cons top rest =>
    rw [stands] at runs
    cases top with
    | send | post => cases runs
    | dispatch source pMsg =>
      obtain ⟨procedure, dispatches⟩ := Option.ite_none_right_eq_some.mp runs
      obtain ⟨state, returns, rfl⟩ := Option.map_eq_some_iff.mp dispatches
      obtain ⟨quiet, taken⟩ := dispatch_section returns
      have nested := inv.nested x
      have held := inv.held x
      rw [stands] at nested held
      rw [messages_dispatch, List.reverse_cons] at held
      have meets : dispatchStep (s.queue x)
          (.dispatch ((s.queue x).held.length - 1) procs result) := by
        intro addr pMsg' found
        rw [held, List.length_append, List.length_singleton, Nat.add_sub_cancel,
          List.getElem?_concat_length] at found
        obtain ⟨rfl, rfl⟩ := Prod.mk.inj (Option.some.inj found)
        exact procedure rfl
      refine inv.moved (inv.queues_update meets returns) (quiet_update quiet)
        (below_nested nested)
        (inv.held_own ?_) (inv.locks_same fun q => ?_) (fun addr onTop => ?_) fun addr onTop _ => ?_
      · rw [taken, held, List.dropLast_concat]
      · rw [stands, lockCount_cons]
        rfl
      · rcases drain_below nested with rfl | ⟨call, rest', rfl⟩
        · exact absurd onTop sentTop_nil
        · cases (sentTop_send.mp onTop).2
      · rw [stands] at onTop
        exact absurd onTop sentTop_dispatch

/-- **Each step that meets the condition keeps the invariant.** -/
theorem cross_step (inv : CrossInv s) {event : CrossEvent} (meets : uncrossedStep s event)
    (runs : crossExec s event = some after) : CrossInv after := by
  cases event with
  | send x call =>
    obtain ⟨⟨code, -⟩, starts⟩ := Option.ite_none_right_eq_some.mp runs
    obtain rfl := Option.some.inj starts
    refine inv.start code rfl (fun addr onTop => ?_) rfl
    cases (sentTop_send.mp onTop).2
  | post x queue call =>
    obtain ⟨code, starts⟩ := Option.ite_none_right_eq_some.mp runs
    obtain rfl := Option.some.inj starts
    exact inv.start code rfl (fun addr => sentTop_post) rfl
  | fetch x env hWnd => exact fetch_inv inv runs
  | ret x procs result => exact ret_inv inv runs
  | turn x =>
    have runs : execTurn s x (s.stack x) = some after := runs
    cases stands : s.stack x with
    | nil =>
      rw [stands] at runs
      cases runs
    | cons top rest =>
      rw [stands] at runs
      cases top with
      | send call pc =>
        refine sendTurn_inv inv stands (fun atEnqueue => ?_) runs
        rw [atEnqueue] at stands
        exact meets call rest stands
      | post queue call pc => exact postTurn_inv inv stands runs
      | dispatch => cases runs

end Steps

/-! ### Deadlock -/

/-- A blocked thread holds no lock on behalf of its innermost activity. -/
theorem Blocked.unlocked {s : CrossState} {x : Side} (blocked : Blocked s x) :
    ∃ top rest, s.stack x = top :: rest ∧ top.locks x = none := by
  cases blocked with
  | lock top rest queue stands wants =>
    refine ⟨top, rest, stands, ?_⟩
    cases top with
    | dispatch => cases wants
    | send call pc => cases pc <;> first | rfl | cases wants
    | post target call pc => cases pc <;> first | rfl | cases wants
  | semWait call rest stands => exact ⟨_, rest, stands, rfl⟩

namespace CrossInv

variable {s : CrossState} {x : Side}

/-- **A blocked thread that holds a lock** holds it in a drain loop, over the message of its peer,
which waits for it. -/
theorem peer_outstanding (inv : CrossInv s) (blocked : Blocked s x) {queue : Side}
    (held : 0 < (s.mutex queue).holds x) : Outstanding s x.peer := by
  obtain ⟨top, rest, stands, unlocked⟩ := blocked.unlocked
  have nested := inv.nested x
  have heldMessages := inv.held x
  rw [inv.locks x queue, stands] at held
  rw [stands] at nested heldMessages
  have free : top.locks x ≠ some queue := by simp [unlocked]
  obtain ⟨node, pMsg, member⟩ := dispatches_of_lockCount nested free held
  have onHold : (Source.sync node, pMsg) ∈ (s.queue x).held := by
    rw [heldMessages, List.mem_reverse]
    exact member
  -- the message was taken out and not dispatched, so its sender was not posted
  obtain ⟨nodes, list, completion⟩ := reachable_completion (inv.queues x)
  have enqueued := (list.taken node
    (List.mem_append_left _ (List.mem_map_of_mem (f := Prod.fst) onHold))).1
  have unposted : s.semPosts x.peer node = 0 := by
    unfold CrossState.semPosts
    rw [Side.peer_peer, completion.posts node enqueued, completion.undispatched onHold]
  refine ⟨node, inv.waiting x.peer node ?_ unposted, unposted⟩
  rw [Side.peer_peer]
  exact enqueued

/-- A thread that is blocked together with its peer waits for its semaphore. -/
theorem outstanding (inv : CrossInv s) (deadlocked : Deadlocked s) (x : Side) :
    Outstanding s x := by
  cases deadlocked x with
  | lock top rest queue stands wants waits =>
    obtain ⟨other, differs, held⟩ := Mutex.acquire_eq_none.mp waits
    obtain rfl := Side.eq_peer differs
    have mine := inv.peer_outstanding (deadlocked x.peer) held
    rw [Side.peer_peer] at mine
    exact mine
  | semWait call rest stands unposted =>
    refine ⟨call.addr, ?_, unposted⟩
    rw [stands]
    exact sentTop_send.mpr ⟨rfl, rfl⟩

end CrossInv

/-- **Two threads are never both blocked** in a run in which nobody enqueues while its peer is
committed. -/
theorem no_deadlock_when_uncrossed {s : CrossState}
    (reached : crossSystem.ReachableBy uncrossedStep s) : ¬ Deadlocked s := by
  have inv : CrossInv s := by
    refine reached.invariant CrossInv ?_ ?_
    · rintro _ ⟨queue, fresh, rfl⟩
      exact initial_crossInv fresh
    · rintro s event after - inv meets runs
      exact cross_step inv meets runs
  intro deadlocked
  exact inv.apart .a (inv.outstanding deadlocked .a) (inv.outstanding deadlocked .b)

/-! ### Two committed threads -/

/-- Both threads are committed. -/
def Crossed (s : CrossState) (call : Side → SyncCall) (rest : Side → List Activity) : Prop :=
  ∀ x, Committed s x (call x) (rest x)

section Crossed

variable {s after : CrossState} {call : Side → SyncCall} {rest : Side → List Activity}

/-- A step of a committed thread that touches no frame. -/
theorem Crossed.advance (crossed : Crossed s call rest) {x : Side} {pc : SendPc}
    {mutex : Side → Mutex Side} {wait : Side → ℕ} (past : pc.pastDrain = true)
    (unposted : pc.sent = true → s.semPosts x (call x).addr = 0) :
    Crossed ⟨s.queue, mutex, wait, Function.update s.stack x (.send (call x) pc :: rest x)⟩
      call rest := by
  intro y
  by_cases same : y = x
  · subst same
    exact ⟨pc, Function.update_self .., past, unposted⟩
  · obtain ⟨pc', stands, past', unposted'⟩ := crossed y
    refine ⟨pc', ?_, past', unposted'⟩
    exact (Function.update_of_ne same ..).trans stands

/-- **An enqueue of a committed thread**, or of a thread whose peer is. -/
theorem crossed_enqueue {x : Side} (stands : s.stack x = .send (call x) .enqueue :: rest x)
    (peer : Committed s x.peer (call x.peer) (rest x.peer)) {state : State}
    (runs : exec (s.queue x.peer) (call x).event = some state) :
    Crossed ((s.setQueue x.peer state).setStack x (.send (call x) .unlockPeer :: rest x))
      call rest := by
  obtain ⟨-, -, fresh, -⟩ := enqueue_section runs
  intro y
  by_cases same : y = x
  · subst same
    refine ⟨.unlockPeer, Function.update_self .., rfl, fun _ => ?_⟩
    show ((Function.update s.queue y.peer state y.peer).world.frames (call y).addr).semPosts = 0
    rw [Function.update_self]
    exact fresh
  · obtain rfl := Side.eq_peer same
    obtain ⟨pc, peerStands, past, unposted⟩ := peer
    refine ⟨pc, (Function.update_of_ne same ..).trans peerStands, past, fun sent => ?_⟩
    show ((Function.update s.queue x.peer state x.peer.peer).world.frames _).semPosts = 0
    rw [Function.update_of_ne x.peer.peer_ne]
    exact unposted sent

/-- One step of `SendSyncMessage` behind the drain. -/
theorem crossed_turn (crossed : Crossed s call rest) {x : Side} {pc : SendPc}
    (stands : s.stack x = .send (call x) pc :: rest x) (past : pc.pastDrain = true)
    (unposted : pc.sent = true → s.semPosts x (call x).addr = 0)
    (runs : sendTurn s x (call x) (rest x) pc = some after) : Crossed after call rest := by
  cases pc with
  | lockOwn | drain => cases past
  | unlockOwn =>
    obtain rfl := Option.some.inj runs
    exact crossed.advance rfl Bool.noConfusion
  | lockPeer =>
    obtain ⟨m, takes, rfl⟩ := Option.map_eq_some_iff.mp runs
    exact crossed.advance rfl Bool.noConfusion
  | enqueue =>
    obtain ⟨state, enqueues, rfl⟩ := Option.map_eq_some_iff.mp runs
    exact crossed_enqueue stands (crossed x.peer) enqueues
  | unlockPeer | getValue =>
    obtain rfl := Option.some.inj runs
    exact crossed.advance rfl unposted
  | post semValue =>
    obtain rfl := Option.some.inj runs
    unfold CrossState.postMsgq
    split
    · exact crossed.advance rfl unposted
    · exact crossed.advance rfl unposted
  | semWait =>
    obtain ⟨posted, -⟩ := Option.ite_none_right_eq_some.mp runs
    rw [unposted rfl] at posted
    cases posted

/-- Two committed threads stay in their calls. -/
theorem crossed_step (crossed : Crossed s call rest) {event : CrossEvent}
    (runs : crossExec s event = some after) : Crossed after call rest := by
  have noCode : ∀ x, runsCode (s.stack x) ≠ true := by
    intro x code
    obtain ⟨pc, stands, -⟩ := crossed x
    rw [stands] at code
    cases code
  cases event with
  | send x _ => exact absurd (Option.ite_none_right_eq_some.mp runs).1.1 (noCode x)
  | post x => exact absurd (Option.ite_none_right_eq_some.mp runs).1 (noCode x)
  | fetch x =>
    obtain ⟨⟨idle, -⟩, -⟩ := Option.ite_none_right_eq_some.mp runs
    refine absurd ?_ (noCode x)
    rw [List.isEmpty_iff.mp idle]
    rfl
  | ret x procs result =>
    obtain ⟨pc, stands, -⟩ := crossed x
    have runs : execRet s x procs result (s.stack x) = some after := runs
    rw [stands] at runs
    cases runs
  | turn x =>
    obtain ⟨pc, stands, past, unposted⟩ := crossed x
    have runs : execTurn s x (s.stack x) = some after := runs
    rw [stands] at runs
    exact crossed_turn crossed stands past unposted runs

/-- **A step that breaks the condition commits both threads.** -/
theorem crossed_of_not_uncrossed {event : CrossEvent} (breaks : ¬ uncrossedStep s event)
    (runs : crossExec s event = some after) : ∃ call rest, Crossed after call rest := by
  cases event with
  | turn x =>
    simp only [uncrossedStep, not_forall, not_not] at breaks
    obtain ⟨mine, myRest, stands, yours, yourRest, committed⟩ := breaks
    have runs : execTurn s x (s.stack x) = some after := runs
    rw [stands] at runs
    obtain ⟨state, enqueues, rfl⟩ := Option.map_eq_some_iff.mp runs
    let call : Side → SyncCall := fun y => if y = x then mine else yours
    let rest : Side → List Activity := fun y => if y = x then myRest else yourRest
    refine ⟨call, rest, ?_⟩
    have crossed := @crossed_enqueue s call rest x (by simpa [call, rest] using stands)
      (by simpa [call, rest, x.peer_ne] using committed) state (by simpa [call] using enqueues)
    simpa [call, rest] using crossed
  | _ => exact absurd trivial breaks

/-- **Neither of the two calls ever returns.** -/
theorem crossed_run (crossed : Crossed s call rest) {events : List CrossEvent}
    (runs : runEvents crossExec s events = some after) : Crossed after call rest := by
  induction events generalizing s with
  | nil =>
    rw [← Option.some.inj runs]
    exact crossed
  | cons event others ih =>
    obtain ⟨middle, first, later⟩ := Option.bind_eq_some_iff.mp runs
    exact ih (crossed_step crossed first) later

end Crossed

/-! ### Runs -/

/-- Two blank queues. -/
def CrossState.blank : CrossState := CrossState.initial fun _ => State.blank

theorem crossBlank_init : crossSystem.init CrossState.blank := ⟨_, fun _ => blank_init, rfl⟩

/-- A send to the window of the other thread. -/
def toPeer (addr : Addr) : SyncCall := ⟨addr, mainWin, 0, none, 10, 5, 0, 0⟩

/-- Steps of a `SendSyncMessage` are taken while the peer is in its message loop. -/
def peerIdle (s : CrossState) : CrossEvent → Bool
  | .turn x => (s.stack x.peer).isEmpty
  | _ => true

theorem uncrossed_of_peerIdle {s : CrossState} {event : CrossEvent} (idle : peerIdle s event = true) :
    uncrossedStep s event := by
  cases event with
  | turn x =>
    rintro call rest - call' rest' ⟨pc, stands, -⟩
    have empty := List.isEmpty_iff.mp idle
    rw [stands] at empty
    cases empty
  | _ => trivial

/-- One thread sends, the other one takes the message out and its procedure returns. -/
def servedSend : List CrossEvent :=
  .send .a (toPeer 7) :: List.replicate 8 (.turn .a) ++
    [.fetch .b desktopEnv 1, .ret .b ⟨fun _ => true, fun _ => false⟩ 42, .turn .a]

/-- Both threads are back in their message loops. -/
theorem no_deadlock_when_uncrossed_served :
    ∃ s, runEvents crossExec CrossState.blank servedSend = some s ∧ (∀ x, s.stack x = []) ∧
      ¬ Deadlocked s := by
  have start : crossSystem.ReachableBy uncrossedStep CrossState.blank := .start crossBlank_init
  have runs : runEvents (fun s event => if peerIdle s event then crossExec s event else none)
      CrossState.blank servedSend = some _ := rfl
  refine ⟨_, rfl, ?_, no_deadlock_when_uncrossed (start.run ?_ runs)⟩
  · rintro (_ | _)
    · rfl
    · rfl
  · intro s event after ran
    obtain ⟨idle, steps⟩ := Option.ite_none_right_eq_some.mp ran
    exact ⟨uncrossed_of_peerIdle idle, steps⟩

/-- Both threads drain, then both enqueue and wait. -/
def crossingSends : List CrossEvent :=
  [.send .a (toPeer 7), .send .b (toPeer 8), .turn .a, .turn .b, .turn .a, .turn .b, .turn .a, .turn .b]
    ++ List.replicate 5 (.turn .a) ++ List.replicate 5 (.turn .b)

/-- **Crossing sends block both threads for ever.** -/
theorem crossing_deadlocks :
    ∃ s, crossSystem.Reachable s ∧ runEvents crossExec CrossState.blank crossingSends = some s ∧
      Deadlocked s ∧ ∀ event, crossExec s event = none := by
  have start : crossSystem.Reachable CrossState.blank := .start crossBlank_init
  have ends : ∃ s, runEvents crossExec CrossState.blank crossingSends = some s ∧ Deadlocked s := by
    refine ⟨_, rfl, ?_⟩
    rintro (_ | _)
    · exact .semWait _ _ rfl rfl
    · exact .semWait _ _ rfl rfl
  obtain ⟨s, runs, deadlocked⟩ := ends
  exact ⟨s, start.run (fun _ _ _ ran => ⟨trivial, ran⟩) runs, runs, deadlocked,
    deadlocked_stuck deadlocked⟩

/-- One thread sends and waits, the other one drains its message, and the procedure sends back. -/
def nestedSend : List CrossEvent :=
  .send .a (toPeer 7) :: List.replicate 8 (.turn .a) ++
    [.send .b (toPeer 8), .turn .b, .turn .b, .send .b (toPeer 9)] ++ List.replicate 9 (.turn .b)

/-- **A procedure that sends back blocks both threads for ever.** -/
theorem nested_send_deadlocks :
    ∃ s, crossSystem.Reachable s ∧ runEvents crossExec CrossState.blank nestedSend = some s ∧
      Deadlocked s := by
  have start : crossSystem.Reachable CrossState.blank := .start crossBlank_init
  have runs : runEvents crossExec CrossState.blank nestedSend = some _ := rfl
  refine ⟨_, start.run (fun _ _ _ ran => ⟨trivial, ran⟩) runs, runs, ?_⟩
  rintro (_ | _)
  · exact .semWait _ _ rfl rfl
  · exact .semWait _ _ rfl rfl

end Aple.Message
