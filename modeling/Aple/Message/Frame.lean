/-
**What each operation leaves alone.**

One inversion lemma for each operation: when it returns, which fields of the world it may have
written, and everything else is as before. The invariants of the three containers and of the summary
bits are proved from these, without looking into the operations again.

* `appendNotify_frame`, `sendPriorNotify_frame`, `throwNotify_frame` — the notification list.
* `linkSync_frame`, `cancelSync_frame` — the synchronous messages.
* `kernelQueueMessage_frame`, `postMessage_frame`, `throwPosted_frame` — the ring.
* `execPeek_inv` — a pass that did not fault has one of the effects of `PeekEffect`.
* `mgThrowAwayMessages_inv`, `emptyMessageQueue_inv` — the two functions that work on all of them.
* **`exec_aside`** — most events have nothing to do with quitting and painting.
-/

import Aple.Message.PeekEffect
import Aple.Message.System

namespace Aple.Message

open Aple.Lib

/-! ### The notification list -/

/-- Only the heap, the two list pointers and the summary bit. -/
theorem appendNotify_frame {addr : Addr} {msg : Msg} {w w' : World}
    (returns : appendNotify addr msg w = some w') :
    ∃ heap first last, first ≠ none ∧ w' = { w with
      heap := heap
      queue := { w.queue.setFlag .notifyMsg with
        pFirstNotifyMsg := first, pLastNotifyMsg := last } } := by
  unfold appendNotify at returns
  split at returns
  · cases returns
  rename_i heap _
  by_cases empty : w.queue.pFirstNotifyMsg = none
  · rw [if_pos empty, Option.some.injEq] at returns
    exact ⟨heap, some addr, some addr, by simp, returns.symm⟩
  · rw [if_neg empty] at returns
    split at returns
    · cases returns
    split at returns
    · cases returns
    rename_i heap' _
    exact ⟨heap', w.queue.pFirstNotifyMsg, some addr, empty, (Option.some.inj returns).symm⟩

/-- Only the heap, the two list pointers and the summary bit. -/
theorem sendPriorNotify_frame {addr : Addr} {tick : Dword} {pad : Ptr} {hWnd : Hwnd} {nMsg : MsgId}
    {wParam : WParam} {lParam : LParam} {w w' : World}
    (returns : sendPriorNotifyMessage addr tick pad hWnd nMsg wParam lParam w = some w') :
    ∃ heap first last, first ≠ none ∧ w' = { w with
      heap := heap
      queue := { w.queue.setFlag .notifyMsg with
        pFirstNotifyMsg := first, pLastNotifyMsg := last } } := by
  unfold sendPriorNotifyMessage at returns
  split at returns
  · cases returns
  rename_i heap _
  by_cases empty : w.queue.pFirstNotifyMsg = none
  · rw [if_pos empty, Option.some.injEq] at returns
    exact ⟨heap, some addr, some addr, by simp, returns.symm⟩
  · rw [if_neg empty] at returns
    split at returns
    · cases returns
    rename_i heap' _
    exact ⟨heap', some addr, w.queue.pLastNotifyMsg, by simp, (Option.some.inj returns).symm⟩

/-- Only the heap and the two list pointers; an empty list stays empty. -/
theorem throwNotify_frame {fuel count : ℕ} {thrown : Hwnd → Bool} {w w' : World}
    (returns : throwNotify fuel thrown w = some (count, w')) :
    ∃ heap first last, (w.queue.pFirstNotifyMsg = none → first = none) ∧ w' = { w with
      heap := heap
      queue := { w.queue with pFirstNotifyMsg := first, pLastNotifyMsg := last } } := by
  unfold throwNotify at returns
  split at returns
  · cases returns
  rename_i v looped
  obtain ⟨-, rfl⟩ := Prod.mk.inj (Option.some.inj returns)
  refine ⟨v.heap, v.pFirst, v.pLast, fun empty => ?_, rfl⟩
  rw [empty] at looped
  cases fuel with
  | zero => cases looped
  | succ fuel =>
    rw [loop_exit rfl, Option.some.injEq] at looped
    rw [← looped]

/-! ### The synchronous messages -/

/-- Only the frames, the two list pointers and the summary bit. -/
theorem linkSync_frame {addr : Addr} {w w' : World} (returns : linkSync addr w = some w') :
    ∃ frames first, first ≠ none ∧ w' = { w with
      frames := frames
      queue := { w.queue.setFlag .syncMsg with
        pFirstSyncMsg := first, pLastSyncMsg := some addr } } := by
  unfold linkSync at returns
  by_cases empty : w.queue.pFirstSyncMsg = none
  · simp only [if_pos empty, Option.some.injEq] at returns
    exact ⟨w.frames, some addr, by simp, returns.symm⟩
  · simp only [if_neg empty] at returns
    split at returns
    · cases returns
    exact ⟨_, w.queue.pFirstSyncMsg, empty, (Option.some.inj returns).symm⟩

/-- Only the frames and the head pointer; an empty list stays empty. -/
theorem cancelSync_frame {fuel count : ℕ} {thrown : Hwnd → Bool} {w w' : World}
    (returns : cancelSync fuel thrown w = some (count, w')) :
    ∃ frames first, (w.queue.pFirstSyncMsg = none → first = none) ∧ w' = { w with
      frames := frames
      queue := { w.queue with pFirstSyncMsg := first } } := by
  unfold cancelSync at returns
  split at returns
  · cases returns
  rename_i v looped
  obtain ⟨-, rfl⟩ := Prod.mk.inj (Option.some.inj returns)
  refine ⟨v.frames, v.pFirst, fun empty => ?_, rfl⟩
  rw [empty] at looped
  cases fuel with
  | zero => cases looped
  | succ fuel =>
    rw [loop_exit rfl, Option.some.injEq] at looped
    rw [← looped]

/-! ### The ring -/

/-- What a post can do to a queue. -/
inductive PostFrame (q : MsgQueue) : Bool × MsgQueue → Prop
  | refused : PostFrame q (false, q)
  | written (msg : ℕ → Msg) (writepos : ℕ) :
      PostFrame q (true, { q with msg := msg, writepos := writepos }.setFlag .postMsg)
  | painted : PostFrame q (true, q.setFlag .paint)

theorem writePosted_frame (msg : Msg) (q : MsgQueue) : PostFrame q (writePosted msg q) := by
  unfold writePosted
  split
  · exact .refused
  · exact .written _ _

theorem kernelQueueMessage_frame {fuel : ℕ} {tick : Dword} {msg : Msg} {q : MsgQueue}
    {r : Bool × MsgQueue} (returns : kernelQueueMessage fuel tick msg q = some r) :
    PostFrame q r := by
  simp only [kernelQueueMessage] at returns
  split at returns
  · split at returns
    · cases returns
    · rw [← Option.some.inj returns]
      exact .written _ q.writepos
    · rw [← Option.some.inj returns]
      exact writePosted_frame _ q
  · split at returns
    · split at returns
      · cases returns
      · rw [← Option.some.inj returns]
        exact .written _ q.writepos
      · rw [← Option.some.inj returns]
        exact writePosted_frame _ q
    · rw [← Option.some.inj returns]
      exact writePosted_frame _ q

theorem postMessage_frame {fuel : ℕ} {tick : Dword} {pad : Ptr} {hWnd : Hwnd} {nMsg : MsgId}
    {wParam : WParam} {lParam : LParam} {q : MsgQueue} {r : Bool × MsgQueue}
    (returns : postMessage fuel tick pad hWnd nMsg wParam lParam q = some r) : PostFrame q r := by
  unfold postMessage at returns
  split at returns
  · rw [← Option.some.inj returns]
    exact .painted
  · exact kernelQueueMessage_frame returns

/-- Only the entries and the write position; an empty ring stays empty. -/
theorem throwPosted_frame {fuel count : ℕ} {thrown : Hwnd → Bool} {q q' : MsgQueue}
    (returns : throwPosted fuel thrown q = some (count, q')) :
    ∃ msg writepos, (q.readpos = q.writepos → writepos = q.readpos) ∧
      q' = { q with msg := msg, writepos := writepos } := by
  unfold throwPosted at returns
  split at returns
  · cases returns
  rename_i v looped
  obtain ⟨-, rfl⟩ := Prod.mk.inj (Option.some.inj returns)
  refine ⟨v.msg, v.writepos, fun empty => ?_, rfl⟩
  cases fuel with
  | zero => cases looped
  | succ fuel =>
    have leaves : throwPostedTurn (fuel + 1) thrown q.len ⟨q.readpos, q.writepos, q.msg, 0⟩ =
        some (.inr ⟨q.readpos, q.writepos, q.msg, 0⟩) := if_pos empty
    rw [loop_exit leaves, Option.some.injEq] at looped
    rw [← looped]
    exact empty.symm

/-! ### A pass of PeekMessageEx -/

theorem execPeek_inv {s s' : State} {env : PeekEnv} {args : PeekArgs} {pMsg : Msg}
    (runs : execPeek s env args pMsg = some s') :
    ∃ outcome after, peekPass env args ⟨s.world, pMsg⟩ = (outcome, after) ∧
      PeekEffect env args ⟨s.world, pMsg⟩ outcome after ∧ outcome ≠ .fault ∧
      s' = (s.setWorld after.world).hold outcome args.remove after.pMsg := by
  unfold execPeek at runs
  rcases pass : peekPass env args ⟨s.world, pMsg⟩ with ⟨outcome, after⟩
  rw [pass] at runs
  refine ⟨outcome, after, rfl, peekPass_effect pass, ?_⟩
  cases outcome with
  | fault => cases runs
  | quit => exact ⟨by simp, (Option.some.inj runs).symm⟩
  | got source => exact ⟨by simp, (Option.some.inj runs).symm⟩
  | callTimer slot timer => exact ⟨by simp, (Option.some.inj runs).symm⟩
  | nothing => exact ⟨by simp, (Option.some.inj runs).symm⟩

/-! ### The events around them -/

theorem execSendSync_inv {s after : State} {addr : Addr} {win : Windows} {time : Dword} {pad : Ptr}
    {hWnd : Hwnd} {msg : MsgId} {wParam : WParam} {lParam : LParam}
    (runs : execSendSync s addr win time pad hWnd msg wParam lParam = some after) :
    isWindow win hWnd = true ∧ addr ∉ s.enqueued ∧ ∃ w,
      sendSyncMessage addr time pad hWnd msg wParam lParam s.world = some w ∧
      after = { s.setWorld w with enqueued := s.enqueued ++ [addr] } := by
  unfold execSendSync at runs
  split at runs
  · rename_i both
    obtain ⟨w, returns, rfl⟩ := Option.map_eq_some_iff.mp runs
    exact ⟨both.1, both.2, w, returns, rfl⟩
  · cases runs

/-- What a turn of the drain loop can do. -/
inductive DrainEffect (s : State) : State → Prop
  | idle : s.world.queue.has .syncMsg = false → DrainEffect s s
  | took (first : Addr) : s.world.queue.has .syncMsg = true →
      s.world.queue.pFirstSyncMsg = some first →
      DrainEffect s { s.setWorld (unlinkFirstSync first s.world) with
        held := s.held ++
          [(.sync first, { (s.world.frames first).msg with pSyncMsg := some first })] }
  | cleared : s.world.queue.has .syncMsg = true → s.world.queue.pFirstSyncMsg = none →
      DrainEffect s (s.setQueue (s.world.queue.clearFlag .syncMsg))

theorem execDrain_effect {s after : State} (runs : execDrain s = some after) :
    DrainEffect s after := by
  unfold execDrain drainSync at runs
  by_cases flagged : s.world.queue.has .syncMsg = true
  · rw [if_pos flagged] at runs
    cases head : s.world.queue.pFirstSyncMsg with
    | none =>
      simp only [head, Option.some.injEq] at runs
      rw [← runs]
      exact .cleared flagged head
    | some first =>
      simp only [head, Option.some.injEq] at runs
      rw [← runs]
      exact .took first flagged head
  · rw [if_neg flagged, Option.some.injEq] at runs
    rw [← runs]
    exact .idle (by simpa using flagged)

theorem peekPostMessage_frame (nMsgFilterMin nMsgFilterMax : MsgId) (uRemoveMsg : BitVec 32)
    (q : MsgQueue) : (peekPostMessage nMsgFilterMin nMsgFilterMax uRemoveMsg q).2.2 = q ∨
      (peekPostMessage nMsgFilterMin nMsgFilterMax uRemoveMsg q).2.2 = q.readNext ∧
        q.has .postMsg = true ∧ q.readpos ≠ q.writepos := by
  unfold peekPostMessage
  by_cases ready : (q.has .postMsg && q.readpos != q.writepos) = true
  · simp only [if_pos ready]
    rw [Bool.and_eq_true, bne_iff_ne] at ready
    by_cases wanted : nMsgFilterMin = 0 ∧ nMsgFilterMax = 0 ∨
        (q.msg q.readpos).message ≤ nMsgFilterMax ∧ (q.msg q.readpos).message ≥ nMsgFilterMin
    · simp only [if_pos wanted]
      by_cases remove : uRemoveMsg = pmRemove
      · exact .inr ⟨if_pos remove, ready⟩
      · exact .inl (if_neg remove)
    · simp only [if_neg wanted]
      exact .inl trivial
  · rw [if_neg ready]
    exact .inl rfl

theorem execDispatch_inv {s after : State} {index : ℕ} {procs : Procs} {result : LResult}
    (runs : execDispatch s index procs result = some after) :
    ∃ source pMsg, s.held[index]? = some (source, pMsg) ∧ after = { s with
      world := { s.world with frames := (dispatchMessage procs result pMsg s.world.frames).2 }
      held := s.held.eraseIdx index
      dispatched := s.dispatched ++ [(source, procResult procs result pMsg)] } := by
  unfold execDispatch at runs
  split at runs
  · cases runs
  · rename_i source pMsg found
    exact ⟨source, pMsg, found, (Option.some.inj runs).symm⟩

theorem execThrowAway_inv {s after : State} {fuel defNrTimers : ℕ} {win : Windows} {hWnd : Hwnd}
    (runs : exec s (.throwAway fuel defNrTimers win hWnd) = some after) :
    hWnd ≠ hwndNull ∧ ∃ count w,
      mgThrowAwayMessages fuel defNrTimers win hWnd s.world = some (count, w) ∧
      after = s.setWorld w := by
  by_cases real : hWnd ≠ hwndNull
  · simp only [exec, if_pos real] at runs
    obtain ⟨⟨count, w⟩, returns, rfl⟩ := Option.map_eq_some_iff.mp runs
    exact ⟨real, count, w, returns, rfl⟩
  · simp only [exec, if_neg real] at runs
    cases runs

/-! ### The two functions that work on every container -/

theorem clearTimerFlags_frame {defNrTimers : ℕ} {thrown : Hwnd → Bool} {q q' : MsgQueue}
    (returns : clearTimerFlags defNrTimers thrown q = some q') :
    ∃ mask, q' = { q with expiredTimerMask := mask } := by
  have step : ∀ (slots : List ℕ) (q : MsgQueue), slots.foldlM (clearTimerFlag thrown) q = some q' →
      ∃ mask, q' = { q with expiredTimerMask := mask } := by
    intro slots
    induction slots with
    | nil =>
      intro q same
      exact ⟨q.expiredTimerMask, (Option.some.inj same).symm⟩
    | cons slot rest ih =>
      intro q folded
      rw [List.foldlM_cons, Option.bind_eq_bind, Option.bind_eq_some_iff] at folded
      obtain ⟨middle, first, others⟩ := folded
      obtain ⟨mask, rfl⟩ := ih middle others
      unfold clearTimerFlag at first
      split at first
      · split at first
        · cases first
        split at first <;> rw [← Option.some.inj first] <;> exact ⟨mask, rfl⟩
      · rw [← Option.some.inj first]
        exact ⟨mask, rfl⟩
  exact step _ q returns

/-- `__mg_throw_away_messages` is its four loops one after the other. -/
theorem mgThrowAwayMessages_inv {fuel defNrTimers count : ℕ} {win : Windows} {hWnd : Hwnd}
    {w w' : World}
    (returns : mgThrowAwayMessages fuel defNrTimers win hWnd w = some (count, w')) :
    ∃ nCountN notified nCountS synced nCountP posted mask,
      throwNotify fuel (isThrown win hWnd) w = some (nCountN, notified) ∧
      cancelSync fuel (isThrown win hWnd) notified = some (nCountS, synced) ∧
      throwPosted fuel (isThrown win hWnd) synced.queue = some (nCountP, posted) ∧
      count = nCountN + nCountS + nCountP ∧
      w' = { synced with queue := { posted with expiredTimerMask := mask } } := by
  unfold mgThrowAwayMessages at returns
  simp only [Option.bind_eq_bind, Option.bind_eq_some_iff, Prod.exists, Option.pure_def,
    Option.some.injEq, Prod.mk.injEq] at returns
  obtain ⟨nCountN, notified, first, nCountS, synced, second, nCountP, posted, third, last, fourth,
    rfl, rfl⟩ := returns
  obtain ⟨mask, rfl⟩ := clearTimerFlags_frame fourth
  exact ⟨nCountN, notified, nCountS, synced, nCountP, posted, mask, first, second, third, rfl, rfl⟩

/-- `EmptyMessageQueue` is its two loops and the reset. -/
theorem emptyMessageQueue_inv {fuel : ℕ} {w w' : World}
    (returns : emptyMessageQueue fuel w = some w') :
    ∃ nCountS synced heap, cancelSync fuel (fun _ => true) w = some (nCountS, synced) ∧
      freeNotify fuel synced.queue.pFirstNotifyMsg synced.heap = some heap ∧
      w' = { synced with
        heap := heap
        queue := { synced.queue with
          pFirstNotifyMsg := none
          pLastNotifyMsg := none
          readpos := 0
          writepos := 0
          dwState := qsEmpty
          expiredTimerMask := 0 } } := by
  unfold emptyMessageQueue at returns
  simp only [Option.bind_eq_bind, Option.bind_eq_some_iff, Prod.exists, Option.pure_def,
    Option.some.injEq] at returns
  obtain ⟨nCountS, synced, first, heap, second, rfl⟩ := returns
  exact ⟨nCountS, synced, heap, first, second, rfl⟩

/-! ### Quitting and painting -/

/-- The quit request, the loop depth and the hosting tree are as before, a paint request stays. -/
structure Aside (q q' : MsgQueue) : Prop where
  quit : q'.has .quit = q.has .quit
  loopDepth : q'.loopDepth = q.loopDepth
  root : q'.pRootMainWin = q.pRootMainWin
  paint : q.has .paint = true → q'.has .paint = true

namespace Aside

variable {q q' q'' : MsgQueue}

theorem refl (q : MsgQueue) : Aside q q := ⟨rfl, rfl, rfl, id⟩

theorem trans (first : Aside q q') (second : Aside q' q'') : Aside q q'' where
  quit := second.quit.trans first.quit
  loopDepth := second.loopDepth.trans first.loopDepth
  root := second.root.trans first.root
  paint before := second.paint (first.paint before)

/-- Another bit is set. -/
theorem setFlag (q : MsgQueue) {flag : Qs} (notQuit : flag ≠ .quit) : Aside q (q.setFlag flag) := by
  refine ⟨?_, rfl, rfl, fun before => ?_⟩
  · rw [MsgQueue.has_setFlag, decide_eq_false notQuit, Bool.or_false]
  · rw [MsgQueue.has_setFlag, before, Bool.true_or]

/-- Another bit is cleared. -/
theorem clearFlag (q : MsgQueue) {flag : Qs} (notQuit : flag ≠ .quit) (notPaint : flag ≠ .paint) :
    Aside q (q.clearFlag flag) := by
  refine ⟨?_, rfl, rfl, fun before => ?_⟩
  · rw [MsgQueue.has_clearFlag, decide_eq_false notQuit, Bool.not_false, Bool.and_true]
  · rw [MsgQueue.has_clearFlag, before, decide_eq_false notPaint]
    rfl

/-- The other fields do not count. -/
theorem fields (aside : Aside q q') {after : MsgQueue} (state : after.dwState = q'.dwState)
    (loopDepth : after.loopDepth = q'.loopDepth) (root : after.pRootMainWin = q'.pRootMainWin) :
    Aside q after := by
  have same : ∀ flag, after.has flag = q'.has flag := fun flag => by
    rw [MsgQueue.has, MsgQueue.has, state]
  refine ⟨(same .quit).trans aside.quit, loopDepth.trans aside.loopDepth, root.trans aside.root, ?_⟩
  exact fun before => (same .paint).trans (aside.paint before)

end Aside

theorem PostFrame.aside {q : MsgQueue} {r : Bool × MsgQueue} (frame : PostFrame q r) :
    Aside q r.2 := by
  cases frame with
  | refused => exact .refl q
  | written msg writepos => exact (Aside.setFlag q (by decide : Qs.postMsg ≠ .quit)).fields rfl rfl rfl
  | painted => exact .setFlag q (by decide)

theorem mgThrowAwayMessages_aside {fuel defNrTimers count : ℕ} {win : Windows} {hWnd : Hwnd}
    {w w' : World} (returns : mgThrowAwayMessages fuel defNrTimers win hWnd w = some (count, w')) :
    Aside w.queue w'.queue := by
  obtain ⟨_, notified, _, synced, _, posted, _, first, second, third, -, rfl⟩ :=
    mgThrowAwayMessages_inv returns
  obtain ⟨_, _, _, -, rfl⟩ := throwNotify_frame first
  obtain ⟨_, _, -, rfl⟩ := cancelSync_frame second
  obtain ⟨_, _, -, rfl⟩ := throwPosted_frame third
  exact (Aside.refl w.queue).fields rfl rfl rfl

/-- The events that may have to do with quitting or painting. -/
def Event.Central : Event → Prop
  | .postQuit | .peek _ _ _ | .empty _ | .windows _ => True
  | _ => False

/-- **Every other event** leaves quitting and painting alone. -/
theorem exec_aside {s after : State} {event : Event} (other : ¬ event.Central)
    (runs : exec s event = some after) : Aside s.world.queue after.world.queue := by
  cases event with
  | queueMessage fuel tick msg =>
    obtain ⟨r, returns, rfl⟩ := Option.map_eq_some_iff.mp runs
    exact (kernelQueueMessage_frame returns).aside
  | post fuel tick pad hWnd nMsg wParam lParam =>
    obtain ⟨r, returns, rfl⟩ := Option.map_eq_some_iff.mp runs
    exact (postMessage_frame returns).aside
  | sendNotify addr tick pad hWnd nMsg wParam lParam =>
    obtain ⟨w, returns, rfl⟩ := Option.map_eq_some_iff.mp runs
    obtain ⟨_, _, _, -, rfl⟩ := appendNotify_frame returns
    exact (Aside.setFlag s.world.queue (by decide : Qs.notifyMsg ≠ .quit)).fields rfl rfl rfl
  | notify addr pad hWnd id code dwAddData =>
    obtain ⟨w, returns, rfl⟩ := Option.map_eq_some_iff.mp runs
    obtain ⟨_, _, _, -, rfl⟩ := appendNotify_frame returns
    exact (Aside.setFlag s.world.queue (by decide : Qs.notifyMsg ≠ .quit)).fields rfl rfl rfl
  | sendPriorNotify addr tick pad hWnd nMsg wParam lParam =>
    obtain ⟨w, returns, rfl⟩ := Option.map_eq_some_iff.mp runs
    obtain ⟨_, _, _, -, rfl⟩ := sendPriorNotify_frame returns
    exact (Aside.setFlag s.world.queue (by decide : Qs.notifyMsg ≠ .quit)).fields rfl rfl rfl
  | sendSync addr win time pad hWnd msg wParam lParam =>
    obtain ⟨-, -, w, returns, rfl⟩ := execSendSync_inv runs
    obtain ⟨_, _, -, rfl⟩ := linkSync_frame returns
    exact (Aside.setFlag s.world.queue (by decide : Qs.syncMsg ≠ .quit)).fields rfl rfl rfl
  | drain =>
    cases execDrain_effect runs with
    | idle => exact .refl _
    | took first => exact (Aside.refl s.world.queue).fields rfl rfl rfl
    | cleared => exact .clearFlag _ (by decide) (by decide)
  | peekPost nMsgFilterMin nMsgFilterMax uRemoveMsg =>
    rw [← Option.some.inj runs]
    show Aside s.world.queue (peekPostMessage nMsgFilterMin nMsgFilterMax uRemoveMsg s.world.queue).2.2
    rcases peekPostMessage_frame nMsgFilterMin nMsgFilterMax uRemoveMsg s.world.queue with eq | ⟨eq, -⟩
    · rw [eq]
      exact .refl _
    · rw [eq]
      exact (Aside.refl s.world.queue).fields rfl rfl rfl
  | dispatch index procs result =>
    obtain ⟨_, _, _, rfl⟩ := execDispatch_inv runs
    exact .refl _
  | throwAway fuel defNrTimers win hWnd =>
    obtain ⟨-, count, w, returns, rfl⟩ := execThrowAway_inv runs
    exact mgThrowAwayMessages_aside returns
  | timers slots mask =>
    rw [← Option.some.inj runs]
    exact (Aside.refl s.world.queue).fields rfl rfl rfl
  | deskTimer =>
    rw [← Option.some.inj runs]
    exact .setFlag _ (by decide)
  | postQuit | peek _ _ _ | empty _ | windows _ => exact absurd trivial other

end Aple.Message
