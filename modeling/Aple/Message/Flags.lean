/-
**No pending message is hidden by a stale status bit.**

* `FlagsOk` — a container that is not empty has its summary bit set.
* `flags_step` — every event keeps it; the bits are cleared in five places, each time after the
  container was seen empty.
* `peekPass_delivers` — with the filter (0, 0) a pass over a queue that is not quitting returns the
  head of the first container that is not empty.
* **`pending_message_is_delivered`** — both, in every state of every run.
-/

import Aple.Message.NotifyDeque

namespace Aple.Message

open Aple.Lib

/-- A container that is not empty has its summary bit set. -/
structure FlagsOk (q : MsgQueue) : Prop where
  posted : q.readpos ≠ q.writepos → q.has .postMsg = true
  notify : q.pFirstNotifyMsg ≠ none → q.has .notifyMsg = true
  sync : q.pFirstSyncMsg ≠ none → q.has .syncMsg = true

namespace FlagsOk

variable {q q' : MsgQueue}

/-- Setting a bit keeps the others. -/
theorem setFlag (ok : FlagsOk q) (flag : Qs) : FlagsOk (q.setFlag flag) := by
  refine ⟨fun pending => ?_, fun pending => ?_, fun pending => ?_⟩
  · rw [MsgQueue.has_setFlag, ok.posted pending, Bool.true_or]
  · rw [MsgQueue.has_setFlag, ok.notify pending, Bool.true_or]
  · rw [MsgQueue.has_setFlag, ok.sync pending, Bool.true_or]

/-- Clearing a bit that summarises nothing pending. -/
theorem clearFlag (ok : FlagsOk q) {flag : Qs}
    (posted : flag = .postMsg → q.readpos = q.writepos)
    (notify : flag = .notifyMsg → q.pFirstNotifyMsg = none)
    (sync : flag = .syncMsg → q.pFirstSyncMsg = none) : FlagsOk (q.clearFlag flag) := by
  refine ⟨fun pending => ?_, fun pending => ?_, fun pending => ?_⟩
  · have differs : flag ≠ .postMsg := fun same => pending (posted same)
    rw [MsgQueue.has_clearFlag, ok.posted pending, decide_eq_false differs]
    rfl
  · have differs : flag ≠ .notifyMsg := fun same => pending (notify same)
    rw [MsgQueue.has_clearFlag, ok.notify pending, decide_eq_false differs]
    rfl
  · have differs : flag ≠ .syncMsg := fun same => pending (sync same)
    rw [MsgQueue.has_clearFlag, ok.sync pending, decide_eq_false differs]
    rfl

end FlagsOk

theorem Tidied.flagsOk {w w' : World} (tidied : Tidied w w') (ok : FlagsOk w.queue) :
    FlagsOk w'.queue := by
  obtain ⟨_, _, _, eq⟩ := tidied.queue
  refine ⟨fun pending => ?_, fun pending => ?_, fun pending => ?_⟩
  · rw [eq] at pending
    rw [tidied.posted pending, ok.posted pending]
  · rw [eq] at pending
    rw [tidied.notify pending, ok.notify pending]
  · rw [eq] at pending
    rw [tidied.sync pending, ok.sync pending]

/-! ### Operation by operation -/

theorem PostFrame.flagsOk {q : MsgQueue} {r : Bool × MsgQueue} (frame : PostFrame q r)
    (ok : FlagsOk q) : FlagsOk r.2 := by
  cases frame with
  | refused => exact ok
  | written msg writepos =>
    refine ⟨fun _ => ?_, (ok.setFlag .postMsg).notify, (ok.setFlag .postMsg).sync⟩
    rw [MsgQueue.has_setFlag, decide_eq_true rfl, Bool.or_true]
  | painted => exact ok.setFlag .paint

theorem postQuit_flags {q : MsgQueue} (ok : FlagsOk q) : FlagsOk (postQuitMessage q) := by
  unfold postQuitMessage
  split
  · exact ok
  · have kept := ok.setFlag .quit
    exact ⟨kept.posted, kept.notify, kept.sync⟩

/-- Filling the notification list sets its bit. -/
theorem notifyFilled_flags {q : MsgQueue} {first last : Ptr} (ok : FlagsOk q) :
    FlagsOk { q.setFlag .notifyMsg with pFirstNotifyMsg := first, pLastNotifyMsg := last } := by
  refine ⟨(ok.setFlag .notifyMsg).posted, fun _ => ?_, (ok.setFlag .notifyMsg).sync⟩
  show (q.setFlag .notifyMsg).has .notifyMsg = true
  rw [MsgQueue.has_setFlag, decide_eq_true rfl, Bool.or_true]

/-- Filling the list of synchronous messages sets its bit. -/
theorem syncFilled_flags {q : MsgQueue} {first last : Ptr} (ok : FlagsOk q) :
    FlagsOk { q.setFlag .syncMsg with pFirstSyncMsg := first, pLastSyncMsg := last } := by
  refine ⟨(ok.setFlag .syncMsg).posted, (ok.setFlag .syncMsg).notify, fun _ => ?_⟩
  show (q.setFlag .syncMsg).has .syncMsg = true
  rw [MsgQueue.has_setFlag, decide_eq_true rfl, Bool.or_true]

theorem removeFirstNotify_flags {head : Addr} {node : QMsg} {w w' : World} (ok : FlagsOk w.queue)
    (flagged : w.queue.has .notifyMsg = true)
    (returns : removeFirstNotify head node w = some w') : FlagsOk w'.queue := by
  obtain ⟨heap, -, rfl⟩ := Option.map_eq_some_iff.mp returns
  exact ⟨ok.posted, fun _ => flagged, ok.sync⟩

/-- A pass clears a bit only over an empty container. -/
theorem peekPass_flags {env : PeekEnv} {args : PeekArgs} {s after : PeekState} {outcome : Outcome}
    (ok : FlagsOk s.world.queue) (effect : PeekEffect env args s outcome after)
    (good : outcome ≠ .fault) : FlagsOk after.world.queue := by
  cases effect with
  | quit _ jumps =>
    obtain ⟨_, _, eq, same, -⟩ := peekQuit_frame jumps
    refine ⟨fun pending => ?_, fun pending => ?_, fun pending => ?_⟩
    · rw [same .postMsg (by decide)]
      exact ok.posted (by rw [eq] at pending; exact pending)
    · rw [same .notifyMsg (by decide)]
      exact ok.notify (by rw [eq] at pending; exact pending)
    · rw [same .syncMsg (by decide)]
      exact ok.sync (by rw [eq] at pending; exact pending)
  | sync first _ _ flagged _ _ tidied _ =>
    refine tidied.flagsOk ?_
    split
    · exact ⟨ok.posted, ok.notify, fun _ => flagged⟩
    · exact ok
  | notify head node tidy removed _ _ _ flagged atHead _ _ before unlinks after' _ =>
    refine after'.flagsOk ?_
    have kept := before.flagsOk ok
    split at unlinks
    · refine removeFirstNotify_flags kept ?_ unlinks
      rw [before.notify (by rw [atHead]; simp)]
      exact flagged
    · rw [unlinks]
      exact kept
  | posted tidy _ _ _ _ flagged pending _ before after' _ =>
    refine after'.flagsOk ?_
    have kept := before.flagsOk ok
    split
    · refine ⟨fun _ => ?_, kept.notify, kept.sync⟩
      rw [MsgQueue.has_readNext, before.posted pending]
      exact flagged
    · exact kept
  | paint _ _ _ _ _ tidied _ => exact tidied.flagsOk ok
  | deskTimer tidy _ _ _ _ _ _ _ before after' _ _ =>
    refine after'.flagsOk ?_
    split
    · exact (before.flagsOk ok).clearFlag (fun same => by cases same) (fun same => by cases same)
        (fun same => by cases same)
    · exact before.flagsOk ok
  | timer _ slot timer tidy _ _ _ _ _ _ before after' _ =>
    have kept := before.flagsOk ok
    exact after'.flagsOk ⟨kept.posted, kept.notify, kept.sync⟩
  | nothing _ _ _ _ _ tidied => exact tidied.flagsOk ok
  | fault => exact absurd rfl good

theorem throwAway_flags {fuel defNrTimers count : ℕ} {win : Windows} {hWnd : Hwnd} {w w' : World}
    (ok : FlagsOk w.queue)
    (returns : mgThrowAwayMessages fuel defNrTimers win hWnd w = some (count, w')) :
    FlagsOk w'.queue := by
  obtain ⟨_, notified, _, synced, _, posted, _, first, second, third, -, rfl⟩ :=
    mgThrowAwayMessages_inv returns
  obtain ⟨_, _, _, noNotify, rfl⟩ := throwNotify_frame first
  obtain ⟨_, _, noSync, rfl⟩ := cancelSync_frame second
  obtain ⟨_, _, noPosted, rfl⟩ := throwPosted_frame third
  refine ⟨fun pending => ok.posted fun empty => pending ?_,
    fun pending => ok.notify fun empty => pending (noNotify empty),
    fun pending => ok.sync fun empty => pending (noSync empty)⟩
  exact (noPosted empty).symm

/-- When every node is cancelled, the head pointer ends at null. -/
theorem cancelSync_all {fuel count : ℕ} {w w' : World}
    (returns : cancelSync fuel (fun _ => true) w = some (count, w')) :
    w'.queue.pFirstSyncMsg = none := by
  unfold cancelSync at returns
  split at returns
  · cases returns
  rename_i v looped
  obtain ⟨-, rfl⟩ := Prod.mk.inj (Option.some.inj returns)
  refine loop_partial (fun v => v.pSyncPrev = none ∧ v.pFirst = v.pSyncMsg)
    (fun v => v.pFirst = none) ?_ ⟨rfl, rfl⟩ looped
  rintro ⟨cur, prev, first, frames, count⟩ out ⟨noPrev, atHead⟩ turn
  obtain rfl : prev = none := noPrev
  obtain rfl : first = cur := atHead
  cases first with
  | none =>
    rw [← Option.some.inj turn]
    rfl
  | some cur =>
    rw [← Option.some.inj turn]
    exact ⟨rfl, rfl⟩

theorem empty_flags {fuel : ℕ} {w w' : World} (returns : emptyMessageQueue fuel w = some w') :
    FlagsOk w'.queue := by
  obtain ⟨_, synced, heap, first, second, rfl⟩ := emptyMessageQueue_inv returns
  exact ⟨fun pending => absurd rfl pending, fun pending => absurd rfl pending,
    fun pending => absurd (cancelSync_all first) pending⟩

/-- **One event.** -/
theorem flags_step {s after : State} {event : Event} (ok : FlagsOk s.world.queue)
    (runs : exec s event = some after) : FlagsOk after.world.queue := by
  cases event with
  | queueMessage fuel tick msg =>
    obtain ⟨r, returns, rfl⟩ := Option.map_eq_some_iff.mp runs
    exact (kernelQueueMessage_frame returns).flagsOk ok
  | post fuel tick pad hWnd nMsg wParam lParam =>
    obtain ⟨r, returns, rfl⟩ := Option.map_eq_some_iff.mp runs
    exact (postMessage_frame returns).flagsOk ok
  | postQuit =>
    rw [← Option.some.inj runs]
    exact postQuit_flags ok
  | sendNotify addr tick pad hWnd nMsg wParam lParam =>
    obtain ⟨w, returns, rfl⟩ := Option.map_eq_some_iff.mp runs
    obtain ⟨_, _, _, -, rfl⟩ := appendNotify_frame returns
    exact notifyFilled_flags ok
  | notify addr pad hWnd id code dwAddData =>
    obtain ⟨w, returns, rfl⟩ := Option.map_eq_some_iff.mp runs
    obtain ⟨_, _, _, -, rfl⟩ := appendNotify_frame returns
    exact notifyFilled_flags ok
  | sendPriorNotify addr tick pad hWnd nMsg wParam lParam =>
    obtain ⟨w, returns, rfl⟩ := Option.map_eq_some_iff.mp runs
    obtain ⟨_, _, _, -, rfl⟩ := sendPriorNotify_frame returns
    exact notifyFilled_flags ok
  | sendSync addr win time pad hWnd msg wParam lParam =>
    obtain ⟨-, -, w, returns, rfl⟩ := execSendSync_inv runs
    obtain ⟨_, _, -, rfl⟩ := linkSync_frame returns
    exact syncFilled_flags ok
  | drain =>
    cases execDrain_effect runs with
    | idle => exact ok
    | took first flagged _ => exact ⟨ok.posted, ok.notify, fun _ => flagged⟩
    | cleared flagged empty =>
      exact ok.clearFlag (fun same => by cases same) (fun same => by cases same) (fun _ => empty)
  | peek env args pMsg =>
    obtain ⟨outcome, afterPass, -, effect, good, rfl⟩ := execPeek_inv runs
    rw [State.world_hold]
    exact peekPass_flags ok effect good
  | peekPost nMsgFilterMin nMsgFilterMax uRemoveMsg =>
    rw [← Option.some.inj runs]
    show FlagsOk (peekPostMessage nMsgFilterMin nMsgFilterMax uRemoveMsg s.world.queue).2.2
    rcases peekPostMessage_frame nMsgFilterMin nMsgFilterMax uRemoveMsg s.world.queue with
      eq | ⟨eq, flagged, -⟩
    · rw [eq]
      exact ok
    · rw [eq]
      exact ⟨fun _ => flagged, ok.notify, ok.sync⟩
  | dispatch index procs result =>
    obtain ⟨_, _, _, rfl⟩ := execDispatch_inv runs
    exact ok
  | throwAway fuel defNrTimers win hWnd =>
    obtain ⟨-, count, w, returns, rfl⟩ := execThrowAway_inv runs
    exact throwAway_flags ok returns
  | empty fuel =>
    obtain ⟨w, returns, rfl⟩ := Option.map_eq_some_iff.mp runs
    exact empty_flags returns
  | timers slots mask =>
    rw [← Option.some.inj runs]
    exact ⟨ok.posted, ok.notify, ok.sync⟩
  | deskTimer =>
    rw [← Option.some.inj runs]
    exact ok.setFlag .deskTimer
  | windows root =>
    rw [← Option.some.inj runs]
    exact ⟨ok.posted, ok.notify, ok.sync⟩

theorem reachable_flags {s : State} (reached : queueSystem.Reachable s) :
    FlagsOk s.world.queue := by
  refine reached.invariant (fun s => FlagsOk s.world.queue) ?_ ?_
  · rintro _ ⟨defMsgqueueLen, iBufferLen, buffer, frames, -, rfl⟩
    exact ⟨fun pending => absurd rfl pending, fun pending => absurd rfl pending,
      fun pending => absurd rfl pending⟩
  · rintro s event after - ok - runs
    exact flags_step ok runs

/-! ### What a call returns -/

/-- A non-waiting call without a filter, for a window that passes the argument check. -/
structure Unfiltered (env : PeekEnv) (win : Windows) (args : PeekArgs) : Prop where
  min : args.nMsgFilterMin = 0
  max : args.nMsgFilterMax = 0
  window : args.hWnd = env.hwndDesktop ∨ isMainVirtWindow win args.hWnd = true

variable {env : PeekEnv} {win : Windows} {args : PeekArgs}

theorem Unfiltered.wanted (unfiltered : Unfiltered env win args) (message : MsgId) :
    isMsgWanted args message = true := by
  unfold isMsgWanted
  rw [unfiltered.min, unfiltered.max]
  rfl

theorem Unfiltered.accepted (unfiltered : Unfiltered env win args) :
    ¬ (args.hWnd ≠ env.hwndDesktop ∧ !isMainVirtWindow win args.hWnd) := by
  rintro ⟨notDesktop, notWindow⟩
  rcases unfiltered.window with desktop | window
  · exact notDesktop desktop
  · simp [window] at notWindow

/-- The call is its passes. -/
theorem Unfiltered.call (unfiltered : Unfiltered env win args) (callback : TimerCallback)
    (passes : ℕ) (pMsg : Msg) (w : World) :
    peekMessageEx env win args callback passes pMsg w =
      peekLoop env args callback passes ⟨w, { Msg.zero with time := env.tickCounter }⟩ :=
  if_neg unfiltered.accepted

/-- What the first pass finds when nothing is filtered: the containers in order. -/
inductive FirstFound (env : PeekEnv) (w : World) : Outcome → Msg → Prop
  | sync (first : Addr) : w.queue.pFirstSyncMsg = some first →
      FirstFound env w (.got (.sync first)) { (w.frames first).msg with pSyncMsg := some first }
  | notify (head : Addr) (node : QMsg) : w.queue.pFirstSyncMsg = none →
      w.queue.pFirstNotifyMsg = some head → w.heap.cells head = some node →
      FirstFound env w (.got .notify) { node.msg with pSyncMsg := none }
  | posted : w.queue.pFirstSyncMsg = none → w.queue.pFirstNotifyMsg = none →
      w.queue.readpos ≠ w.queue.writepos →
      FirstFound env w (.got .posted)
        (checkCapturedMouseMessage env { w.queue.msg w.queue.readpos with pSyncMsg := none })
  | empty (outcome : Outcome) (pMsg : Msg) : w.queue.pFirstSyncMsg = none →
      w.queue.pFirstNotifyMsg = none → w.queue.readpos = w.queue.writepos →
      FirstFound env w outcome pMsg

/-- When the filter lets everything through, a skipped container is empty. -/
theorem empty_of_skipped (wanted : ∀ message, isMsgWanted args message = true) {w : World}
    (ok : FlagsOk w.queue)
    (live : ∀ head, w.queue.pFirstNotifyMsg = some head → w.heap.cells head ≠ none) :
    (SkipsSync args w → w.queue.pFirstSyncMsg = none) ∧
      (SkipsNotify args w → w.queue.pFirstNotifyMsg = none) ∧
      (SkipsPosted args w → w.queue.readpos = w.queue.writepos) := by
  refine ⟨fun skips => ?_, fun skips => ?_, fun skips => ?_⟩
  · by_contra pending
    obtain ⟨first, atHead⟩ := Option.ne_none_iff_exists'.mp pending
    have rejected := skips (ok.sync pending) first atHead
    rw [wanted] at rejected
    cases rejected
  · by_contra pending
    obtain ⟨head, atHead⟩ := Option.ne_none_iff_exists'.mp pending
    obtain ⟨node, read⟩ := Option.ne_none_iff_exists'.mp (live head atHead)
    have rejected := skips (ok.notify pending) head node atHead read
    rw [wanted] at rejected
    cases rejected
  · by_contra pending
    have rejected := skips (ok.posted pending) pending
    rw [wanted] at rejected
    cases rejected

/-- **A pass returns the head of the first container that is not empty.** -/
theorem peekPass_delivers (unfiltered : Unfiltered env win args) {s after : PeekState}
    {outcome : Outcome} (ok : FlagsOk s.world.queue)
    (live : ∀ head, s.world.queue.pFirstNotifyMsg = some head → s.world.heap.cells head ≠ none)
    (running : s.world.queue.has .quit = false)
    (effect : PeekEffect env args s outcome after) :
    FirstFound env s.world outcome after.pMsg := by
  obtain ⟨noSync, noNotify, noPosted⟩ := empty_of_skipped unfiltered.wanted ok live
  cases effect with
  | quit _ jumps => simp [peekQuit, running] at jumps
  | sync first _ _ _ atHead _ _ returned =>
    rw [returned]
    exact .sync first atHead
  | notify head node _ _ _ _ skipsSync _ atHead read _ _ _ _ returned =>
    rw [returned]
    exact .notify head node (noSync skipsSync) atHead read
  | posted _ _ _ skipsSync skipsNotify _ pending _ _ _ returned =>
    rw [returned]
    exact .posted (noSync skipsSync) (noNotify skipsNotify) pending
  | paint _ _ skipsSync skipsNotify skipsPosted =>
    exact .empty _ _ (noSync skipsSync) (noNotify skipsNotify) (noPosted skipsPosted)
  | deskTimer _ _ _ skipsSync skipsNotify skipsPosted =>
    exact .empty _ _ (noSync skipsSync) (noNotify skipsNotify) (noPosted skipsPosted)
  | timer _ _ _ _ _ _ skipsSync skipsNotify skipsPosted =>
    exact .empty _ _ (noSync skipsSync) (noNotify skipsNotify) (noPosted skipsPosted)
  | nothing _ _ skipsSync skipsNotify skipsPosted =>
    exact .empty _ _ (noSync skipsSync) (noNotify skipsNotify) (noPosted skipsPosted)
  | fault _ skipsSync reason =>
    rcases reason with ⟨head, atHead, dangling⟩ | ⟨skipsNotify, skipsPosted⟩
    · exact absurd dangling (live head atHead)
    · exact .empty _ _ (noSync skipsSync) (noNotify skipsNotify) (noPosted skipsPosted)

/-- What a non-waiting unfiltered call does on a world: `TRUE` with the head of the first container
that is not empty, `FALSE` only when there is none. -/
structure Delivers (w : World) : Prop where
  sync : ∀ env win args callback passes pMsg, Unfiltered env win args → ∀ first,
    w.queue.pFirstSyncMsg = some first →
    ∃ after, peekMessageEx env win args callback (passes + 1) pMsg w = some (true, after) ∧
      after.pMsg = { (w.frames first).msg with pSyncMsg := some first }
  notify : ∀ env win args callback passes pMsg, Unfiltered env win args → ∀ head,
    w.queue.pFirstSyncMsg = none → w.queue.pFirstNotifyMsg = some head →
    ∃ node after, w.heap.cells head = some node ∧
      peekMessageEx env win args callback (passes + 1) pMsg w = some (true, after) ∧
      after.pMsg = { node.msg with pSyncMsg := none }
  posted : ∀ env win args callback passes pMsg, Unfiltered env win args →
    w.queue.pFirstSyncMsg = none → w.queue.pFirstNotifyMsg = none →
    w.queue.readpos ≠ w.queue.writepos →
    ∃ after, peekMessageEx env win args callback (passes + 1) pMsg w = some (true, after) ∧
      after.pMsg =
        checkCapturedMouseMessage env { w.queue.msg w.queue.readpos with pSyncMsg := none }
  empty : ∀ env win args callback passes pMsg after, Unfiltered env win args →
    peekMessageEx env win args callback passes pMsg w = some (false, after) →
    w.queue.pFirstSyncMsg = none ∧ w.queue.pFirstNotifyMsg = none ∧
      w.queue.readpos = w.queue.writepos

/-- A pass that ends with a message ends the call. -/
theorem Unfiltered.returns (unfiltered : Unfiltered env win args) {callback : TimerCallback}
    {passes : ℕ} {pMsg : Msg} {w : World} {source : Source} {after : PeekState}
    (pass : peekPass env args ⟨w, { Msg.zero with time := env.tickCounter }⟩ =
      (.got source, after)) :
    peekMessageEx env win args callback (passes + 1) pMsg w = some (true, after) := by
  rw [unfiltered.call, peekLoop, pass]

theorem delivers_of_flags {w : World} (ok : FlagsOk w.queue)
    (live : ∀ head, w.queue.pFirstNotifyMsg = some head → w.heap.cells head ≠ none)
    (running : w.queue.has .quit = false) : Delivers w := by
  have found : ∀ env win args, Unfiltered env win args → ∃ outcome after,
      peekPass env args ⟨w, { Msg.zero with time := env.tickCounter }⟩ = (outcome, after) ∧
      FirstFound env w outcome after.pMsg := fun env win args unfiltered =>
    ⟨_, _, rfl, peekPass_delivers (s := ⟨w, _⟩) unfiltered ok live running (peekPass_effect rfl)⟩
  constructor
  case sync =>
    intro env win args callback passes pMsg unfiltered first atHead
    obtain ⟨outcome, ⟨w', msg⟩, pass, result⟩ := found env win args unfiltered
    cases result with
    | sync first' atHead' =>
      obtain rfl : first = first' := Option.some.inj (atHead.symm.trans atHead')
      exact ⟨_, unfiltered.returns pass, rfl⟩
    | notify _ _ null => rw [null] at atHead; cases atHead
    | posted null => rw [null] at atHead; cases atHead
    | empty _ _ null => rw [null] at atHead; cases atHead
  case notify =>
    intro env win args callback passes pMsg unfiltered head noSync atHead
    obtain ⟨outcome, ⟨w', msg⟩, pass, result⟩ := found env win args unfiltered
    cases result with
    | sync first pending => rw [noSync] at pending; cases pending
    | notify head' node _ atHead' read =>
      obtain rfl : head = head' := Option.some.inj (atHead.symm.trans atHead')
      exact ⟨node, _, read, unfiltered.returns pass, rfl⟩
    | posted _ null => rw [null] at atHead; cases atHead
    | empty _ _ _ null => rw [null] at atHead; cases atHead
  case posted =>
    intro env win args callback passes pMsg unfiltered noSync noNotify pending
    obtain ⟨outcome, ⟨w', msg⟩, pass, result⟩ := found env win args unfiltered
    cases result with
    | sync first atHead => rw [noSync] at atHead; cases atHead
    | notify head _ _ atHead => rw [noNotify] at atHead; cases atHead
    | posted _ _ _ => exact ⟨_, unfiltered.returns pass, rfl⟩
    | empty _ _ _ _ same => exact absurd same pending
  case empty =>
    intro env win args callback passes pMsg after unfiltered returns
    obtain ⟨outcome, ⟨w', msg⟩, pass, result⟩ := found env win args unfiltered
    rw [unfiltered.call] at returns
    cases passes with
    | zero => cases returns
    | succ passes =>
      rw [peekLoop, pass] at returns
      cases result with
      | sync => cases returns
      | notify => cases returns
      | posted => cases returns
      | empty _ _ noSync noNotify noPosted => exact ⟨noSync, noNotify, noPosted⟩

/-- **No pending message is hidden**: the bits summarise the containers, and a queue that is not
quitting hands out what is pending, in every state of every run. -/
theorem pending_message_is_delivered {s : State} (reached : queueSystem.Reachable s) :
    FlagsOk s.world.queue ∧ (s.world.queue.has .quit = false → Delivers s.world) := by
  refine ⟨reachable_flags reached, fun running => ?_⟩
  obtain ⟨msgs, nodes, list, -⟩ := reachable_notify reached
  refine delivers_of_flags (reachable_flags reached) (fun head atHead => ?_) running
  refine (list.owned.live head).mpr (List.mem_of_mem_head? ?_)
  rw [← list.first_eq, atHead]
  rfl

/-- A notification waiting behind a synchronous message. -/
def syncAndNote : List Event :=
  [.sendNotify 5 0 none 1 0x0800 0 0, .sendSync 7 (fun _ => ⟨typeHwnd, typeMainWin, 0⟩) 0 none 1 2 0 0]

theorem pending_message_is_delivered_two :
    ∃ s, State.blank.run syncAndNote = some s ∧ FlagsOk s.world.queue ∧ Delivers s.world :=
  have both := pending_message_is_delivered
    (reachable_of_run blank_reachable (rfl : State.blank.run syncAndNote = some _))
  ⟨_, rfl, both.1, both.2 rfl⟩

end Aple.Message
