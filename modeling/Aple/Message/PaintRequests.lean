/-
**Paint requests.**

* `PaintEvent`, `paintSystem` — the runs of a queue and of the windows of its thread: windows come
  and go, are invalidated, which posts `MSG_PAINT`, and painted.
* `PaintOk` — while a window needs painting the paint bit is set, and a call that finds nothing else
  returns `MSG_PAINT` for such a window.
* `peekPass_paintKept` — a pass clears the bit only after its search found nothing.
* **`paint_ok_when_emptied_clean`** — the promise holds in every run that empties the queue only
  while no window needs painting.
* `empty_loses_paint` — `EmptyMessageQueue` clears the bit of a window that is still invalid.
-/

import Aple.Message.Flags
import Aple.Message.HostTree

namespace Aple.Message

open Aple.Lib

/-! ### Runs -/

/-- What happens to the windows of a thread and to their queue. -/
inductive PaintEvent
  | invalidate (fuel : ℕ) (tick : Dword) (pad : Ptr) (hWnd : Hwnd) (wParam : WParam) (lParam : LParam)
  | validate (hWnd : Hwnd)
  | windows (root : Option HostWin)
  | queue (event : Event)

/-- Replace the hosting tree. -/
def State.setRoot (s : State) (root : Option HostWin) : State :=
  s.setQueue { s.world.queue with pRootMainWin := root }

/-- Some window of the thread needs painting. -/
def State.Needs (dskWin : Hwnd) (s : State) (needs : Hwnd) : Prop :=
  ∃ root, s.world.queue.pRootMainWin = some root ∧ root.Needs dskWin needs

/-- The events of the queue; the tree changes by the events for it. -/
def QueueEvent (dskWin : Hwnd) : Event → Prop
  | .windows _ => False
  | .peek env _ _ => env.hwndDesktop = dskWin
  | _ => True

/-- One event. Every invalidation posts `MSG_PAINT`; a window that comes into being is not invalid
before it is invalidated. -/
def paintStep (dskWin : Hwnd) (s : State) : PaintEvent → State → Prop
  | .invalidate fuel tick pad hWnd wParam lParam, after => hWnd ≠ hwndNull ∧
      exec (s.setRoot (s.world.queue.pRootMainWin.map (HostWin.mark hWnd true)))
        (.post fuel tick pad hWnd msgPaint wParam lParam) = some after
  | .validate hWnd, after =>
      s.setRoot (s.world.queue.pRootMainWin.map (HostWin.mark hWnd false)) = after
  | .windows root, after =>
      (∀ needs, (s.setRoot root).Needs dskWin needs → s.Needs dskWin needs) ∧ s.setRoot root = after
  | .queue event, after => QueueEvent dskWin event ∧ exec s event = some after

/-- Every run, where `dskWin` is `__mg_dsk_win`. -/
def paintSystem (dskWin : Hwnd) : System State PaintEvent where
  init := queueSystem.init
  step := paintStep dskWin

/-- No paint request is lost. -/
structure PaintOk (dskWin : Hwnd) (s : State) : Prop where
  flag : ∀ needs, s.Needs dskWin needs → s.world.queue.has .paint = true
  served : ∀ env win args callback passes pMsg, env.hwndDesktop = dskWin → Unfiltered env win args →
    s.world.queue.has .quit = false → s.world.queue.pFirstSyncMsg = none →
    s.world.queue.pFirstNotifyMsg = none → s.world.queue.readpos = s.world.queue.writepos →
    ∀ needs, s.Needs dskWin needs →
    ∃ after, peekMessageEx env win args callback (passes + 1) pMsg s.world = some (true, after) ∧
      after.pMsg.message = msgPaint ∧ s.Needs dskWin after.pMsg.hwnd

/-- The condition: the queue is not emptied while a window needs painting. -/
def EmptiesClean (dskWin : Hwnd) (s : State) : PaintEvent → Prop
  | .queue (.empty _) => ∀ needs, ¬ s.Needs dskWin needs
  | _ => True

/-! ### A pass keeps the bit, or finds nothing -/

/-- The tree stays, and the paint bit is cleared only over a tree that the search has gone
through. -/
structure PaintKept (dskWin : Hwnd) (q q' : MsgQueue) : Prop where
  root : q'.pRootMainWin = q.pRootMainWin
  paint : q.has .paint = true → q'.has .paint = true ∨
    ∃ root, q.pRootMainWin = some root ∧ msgCheckHostedTree dskWin root = hwndNull

section Kept

variable {dskWin : Hwnd} {q q' q'' : MsgQueue}

theorem PaintKept.refl (q : MsgQueue) : PaintKept dskWin q q := ⟨rfl, .inl⟩

theorem PaintKept.trans (first : PaintKept dskWin q q') (second : PaintKept dskWin q' q'') :
    PaintKept dskWin q q'' := by
  refine ⟨second.root.trans first.root, fun before => ?_⟩
  rcases first.paint before with kept | nothing
  · rcases second.paint kept with kept | ⟨root, same, nothing⟩
    · exact .inl kept
    · exact .inr ⟨root, first.root.symm.trans same, nothing⟩
  · exact .inr nothing

/-- The paint bit and the tree are not touched. -/
theorem PaintKept.same (state : q'.has .paint = q.has .paint) (root : q'.pRootMainWin = q.pRootMainWin) :
    PaintKept dskWin q q' :=
  ⟨root, fun before => .inl (state.trans before)⟩

theorem PaintKept.clearFlag (q : MsgQueue) {flag : Qs} (notPaint : flag ≠ .paint) :
    PaintKept dskWin q (q.clearFlag flag) := by
  refine .same ?_ rfl
  rw [MsgQueue.has_clearFlag, decide_eq_false notPaint, Bool.not_false, Bool.and_true]

theorem Stage.All.mono {falls falls' : PeekState → Prop} {jumps jumps' : Outcome → PeekState → Prop}
    {stage : Stage} (all : stage.All falls jumps) (fallsToo : ∀ s, falls s → falls' s)
    (jumpsToo : ∀ outcome s, jumps outcome s → jumps' outcome s) : stage.All falls' jumps' := by
  cases stage with
  | ok s => exact fallsToo s all
  | error jump => exact jumpsToo jump.1 jump.2 all

/-- A stage keeps the paint bit both ways it can end. -/
def Keeps (dskWin : Hwnd) (stage : PeekState → Stage) : Prop :=
  ∀ s, (stage s).All (fun s' => PaintKept dskWin s.world.queue s'.world.queue)
    fun _ s' => PaintKept dskWin s.world.queue s'.world.queue

theorem Keeps.bind {first second : PeekState → Stage} (keeps : Keeps dskWin first)
    (keeps' : Keeps dskWin second) : Keeps dskWin fun s => first s >>= second := by
  intro s
  refine (keeps s).bind fun middle before => ?_
  exact (keeps' middle).mono (fun _ after => before.trans after) fun _ _ after => before.trans after

variable {env : PeekEnv} {a : PeekArgs}

theorem peekQuit_keeps : Keeps dskWin (peekQuit a) := by
  intro s
  by_cases quitting : s.world.queue.has .quit = true
  · simp only [peekQuit, if_pos quitting]
    by_cases remove : a.remove = true
    · simp only [if_pos remove]
      let lower : MsgQueue := { s.world.queue with loopDepth := s.world.queue.loopDepth - 1 }
      have lowered : PaintKept dskWin s.world.queue lower := .same rfl rfl
      show PaintKept dskWin s.world.queue (if lower.loopDepth = 0 then lower.clearFlag .quit else lower)
      split
      · exact lowered.trans (.clearFlag lower (by decide))
      · exact lowered
    · simp only [if_neg remove]
      exact .refl s.world.queue
  · simp only [peekQuit, if_neg quitting]
    exact .refl s.world.queue

theorem peekSync_keeps : Keeps dskWin (peekSync a) := by
  intro s
  by_cases flagged : s.world.queue.has .syncMsg = true
  · simp only [peekSync, if_pos flagged]
    cases s.world.queue.pFirstSyncMsg with
    | none => exact .clearFlag s.world.queue (by decide)
    | some first =>
      by_cases wanted : isMsgWanted a (s.world.frames first).msg.message = true
      · simp only [if_pos wanted]
        show PaintKept dskWin s.world.queue (if a.remove then _ else _ : World).queue
        split
        · exact .same rfl rfl
        · exact .refl _
      · simp only [if_neg wanted]
        exact .refl s.world.queue
  · simp only [peekSync, if_neg flagged]
    exact .refl s.world.queue

theorem peekNotify_keeps : Keeps dskWin (peekNotify a) := by
  intro s
  by_cases flagged : s.world.queue.has .notifyMsg = true
  · simp only [peekNotify, if_pos flagged]
    cases s.world.queue.pFirstNotifyMsg with
    | none => exact .clearFlag s.world.queue (by decide)
    | some head =>
      dsimp only
      cases s.world.heap.cells head with
      | none => exact .refl s.world.queue
      | some node =>
        dsimp only
        by_cases wanted : isMsgWanted a node.msg.message = true
        · by_cases remove : a.remove = true
          · simp only [if_pos wanted, if_pos remove]
            cases removes : removeFirstNotify head node s.world with
            | none => exact .refl s.world.queue
            | some world =>
              obtain ⟨heap, -, rfl⟩ := Option.map_eq_some_iff.mp removes
              exact .same rfl rfl
          · simp only [if_pos wanted, if_neg remove]
            exact .refl s.world.queue
        · simp only [if_neg wanted]
          exact .refl s.world.queue
  · simp only [peekNotify, if_neg flagged]
    exact .refl s.world.queue

theorem peekPosted_keeps : Keeps dskWin (peekPosted env a) := by
  intro s
  by_cases flagged : s.world.queue.has .postMsg = true
  · simp only [peekPosted, if_pos flagged]
    by_cases pending : s.world.queue.readpos ≠ s.world.queue.writepos
    · simp only [if_pos pending]
      by_cases wanted : isMsgWanted a (s.world.queue.msg s.world.queue.readpos).message = true
      · simp only [if_pos wanted]
        show PaintKept dskWin s.world.queue (if a.remove then _ else _)
        split
        · exact .same rfl rfl
        · exact .refl _
      · simp only [if_neg wanted]
        exact .refl s.world.queue
    · simp only [if_neg pending]
      exact .clearFlag s.world.queue (by decide)
  · simp only [peekPosted, if_neg flagged]
    exact .refl s.world.queue

/-- The only stage that clears the bit. -/
theorem peekPaint_keeps : Keeps env.hwndDesktop (peekPaint env a) := by
  intro s
  by_cases asked : (s.world.queue.has .paint && isMsgWanted a msgPaint) = true
  · simp only [peekPaint, if_pos asked]
    cases atRoot : s.world.queue.pRootMainWin with
    | none => exact .refl s.world.queue
    | some root =>
      by_cases found : msgCheckHostedTree env.hwndDesktop root ≠ hwndNull
      · simp only [if_pos found]
        exact .refl s.world.queue
      · simp only [if_neg found]
        exact ⟨rfl, fun _ => .inr ⟨root, atRoot, not_not.mp found⟩⟩
  · simp only [peekPaint, if_neg asked]
    exact .refl s.world.queue

theorem peekDeskTimer_keeps : Keeps dskWin (peekDeskTimer env a) := by
  intro s
  by_cases ticked : (env.isDskQueue && s.world.queue.has .deskTimer) = true
  · simp only [peekDeskTimer, if_pos ticked]
    show PaintKept dskWin s.world.queue (if a.remove then _ else _)
    split
    · exact .clearFlag s.world.queue (by decide)
    · exact .refl _
  · simp only [peekDeskTimer, if_neg ticked]
    exact .refl s.world.queue

theorem peekTimer_keeps : Keeps dskWin (peekTimer env a) := by
  intro s
  by_cases expired : s.world.queue.expiredTimerMask ≠ 0 ∧ isMsgWanted a msgTimer = true
  · simp only [peekTimer, if_pos expired]
    rcases loop (timerSlotTurn env s.world.queue) (env.defNrTimers + 1) s.world.queue.firstTimerSlot with
      _ | _ | slot
    · exact .refl s.world.queue
    · exact .refl s.world.queue
    · dsimp only
      cases s.world.queue.timerSlots slot with
      | none => exact .same rfl rfl
      | some timer =>
        by_cases callback : timer.proc = true
        · simp only [if_pos callback]
          exact .same rfl rfl
        · simp only [if_neg callback]
          exact .same rfl rfl
  · simp only [peekTimer, if_neg expired]
    exact .refl s.world.queue

/-- **A pass clears the paint bit only after its search found nothing.** -/
theorem peekPass_paintKept {s after : PeekState} {outcome : Outcome}
    (pass : peekPass env a s = (outcome, after)) :
    PaintKept env.hwndDesktop s.world.queue after.world.queue := by
  have keeps : Keeps env.hwndDesktop (peekStages env a) :=
    peekQuit_keeps.bind <| peekSync_keeps.bind <| peekNotify_keeps.bind <| peekPosted_keeps.bind <|
      peekPaint_keeps.bind <| peekDeskTimer_keeps.bind peekTimer_keeps
  have kept := keeps s
  unfold peekPass at pass
  cases ends : peekStages env a s with
  | ok s' =>
    rw [ends] at pass kept
    obtain ⟨-, rfl⟩ := Prod.mk.inj pass
    exact kept
  | error jump =>
    rw [ends] at pass kept
    obtain ⟨rfl, rfl⟩ := Prod.mk.inj pass
    have landed :
        PaintKept env.hwndDesktop jump.2.world.queue (jump.1.land env jump.2).world.queue := by
      unfold Outcome.land
      split
      · unfold gotRet
        split
        · exact .same rfl rfl
        · exact .refl _
      · exact .refl _
    exact kept.trans landed

end Kept

/-! ### A call that finds nothing else -/

/-- Nothing comes before painting. -/
structure OnlyPaint (q : MsgQueue) : Prop where
  running : q.has .quit = false
  sync : q.pFirstSyncMsg = none
  notify : q.pFirstNotifyMsg = none
  posted : q.readpos = q.writepos

section Served

variable {env : PeekEnv} {a : PeekArgs} {s : PeekState}

theorem OnlyPaint.clearFlag {q : MsgQueue} (quiet : OnlyPaint q) {flag : Qs}
    (notQuit : flag ≠ .quit)
    (notPaint : flag ≠ .paint) : OnlyPaint (q.clearFlag flag) :=
  ⟨(Aside.clearFlag q notQuit notPaint).quit.trans quiet.running, quiet.sync, quiet.notify, quiet.posted⟩

theorem peekSync_quiet (quiet : OnlyPaint s.world.queue) : ∃ s', peekSync a s = .ok s' ∧
    OnlyPaint s'.world.queue ∧ Aside s.world.queue s'.world.queue := by
  by_cases flagged : s.world.queue.has .syncMsg = true
  · simp only [peekSync, if_pos flagged, quiet.sync]
    exact ⟨_, rfl, quiet.clearFlag (by decide) (by decide), .clearFlag _ (by decide) (by decide)⟩
  · simp only [peekSync, if_neg flagged]
    exact ⟨s, rfl, quiet, .refl _⟩

theorem peekNotify_quiet (quiet : OnlyPaint s.world.queue) : ∃ s', peekNotify a s = .ok s' ∧
    OnlyPaint s'.world.queue ∧ Aside s.world.queue s'.world.queue := by
  by_cases flagged : s.world.queue.has .notifyMsg = true
  · simp only [peekNotify, if_pos flagged, quiet.notify]
    exact ⟨_, rfl, quiet.clearFlag (by decide) (by decide), .clearFlag _ (by decide) (by decide)⟩
  · simp only [peekNotify, if_neg flagged]
    exact ⟨s, rfl, quiet, .refl _⟩

theorem peekPosted_quiet (quiet : OnlyPaint s.world.queue) : ∃ s', peekPosted env a s = .ok s' ∧
    OnlyPaint s'.world.queue ∧ Aside s.world.queue s'.world.queue := by
  by_cases flagged : s.world.queue.has .postMsg = true
  · simp only [peekPosted, if_pos flagged, if_neg (not_not.mpr quiet.posted)]
    exact ⟨_, rfl, quiet.clearFlag (by decide) (by decide), .clearFlag _ (by decide) (by decide)⟩
  · simp only [peekPosted, if_neg flagged]
    exact ⟨s, rfl, quiet, .refl _⟩

/-- **A pass that finds nothing else** returns a paint request, if it is wanted. -/
theorem peekPass_paints {root : HostWin} (quiet : OnlyPaint s.world.queue)
    (flag : s.world.queue.has .paint = true) (wanted : isMsgWanted a msgPaint = true)
    (atRoot : s.world.queue.pRootMainWin = some root)
    (found : msgCheckHostedTree env.hwndDesktop root ≠ hwndNull) :
    ∃ after, peekPass env a s = (.got .paint, after) ∧ after.pMsg.message = msgPaint ∧
      after.pMsg.hwnd = msgCheckHostedTree env.hwndDesktop root := by
  obtain ⟨s₁, synced, quiet₁, aside₁⟩ := peekSync_quiet (a := a) quiet
  obtain ⟨s₂, notified, quiet₂, aside₂⟩ := peekNotify_quiet (a := a) quiet₁
  obtain ⟨s₃, posted, quiet₃, aside₃⟩ : ∃ s', peekPosted env a s₂ = .ok s' ∧
      OnlyPaint s'.world.queue ∧ Aside s₂.world.queue s'.world.queue := peekPosted_quiet quiet₂
  have aside := (aside₁.trans aside₂).trans aside₃
  have asked : (s₃.world.queue.has .paint && isMsgWanted a msgPaint) = true := by
    rw [aside.paint flag, wanted]
    rfl
  obtain ⟨paints, painted, message, hwnd⟩ : ∃ paints, peekPaint env a s₃ = .error (.got .paint, paints) ∧
      paints.pMsg.message = msgPaint ∧ paints.pMsg.hwnd = msgCheckHostedTree env.hwndDesktop root := by
    simp only [peekPaint, if_pos asked, aside.root.trans atRoot, if_pos found]
    exact ⟨_, rfl, rfl, rfl⟩
  have running : peekQuit a s = .ok s := by
    simp only [peekQuit, quiet.running]
    rfl
  have bind_ok :
      ∀ (s : PeekState) (next : PeekState → Stage), (Except.ok s >>= next : Stage) = next s :=
    fun _ _ => rfl
  have stages : peekStages env a s = .error (.got .paint, paints) := by
    simp only [peekStages, running, synced, notified, posted, painted, bind_ok]
    rfl
  refine ⟨gotRet env paints, ?_, ?_, ?_⟩
  · rw [peekPass, stages]
    rfl
  · rw [gotRet_pMsg, message]
  · rw [gotRet_pMsg, hwnd]

end Served

/-! ### The invariant -/

section Invariant

variable {dskWin needs : Hwnd} {s after : State}

/-- Windows need painting by the tree alone. -/
theorem State.Needs.of_root (needy : after.Needs dskWin needs)
    (root : after.world.queue.pRootMainWin = s.world.queue.pRootMainWin) :
    s.Needs dskWin needs := by
  obtain ⟨tree, atRoot, below⟩ := needy
  exact ⟨tree, root.symm.trans atRoot, below⟩

/-- What needs painting after a window was marked. -/
theorem State.needs_of_mark {hWnd : Hwnd} {invalid : Bool}
    (needy : (s.setRoot (s.world.queue.pRootMainWin.map (HostWin.mark hWnd invalid))).Needs dskWin needs) :
    s.Needs dskWin needs ∨ invalid = true ∧ needs = hWnd := by
  obtain ⟨tree, atRoot, below⟩ := needy
  obtain ⟨before, atRoot', rfl⟩ := Option.map_eq_some_iff.mp atRoot
  rcases HostWin.needs_of_mark below with needed | marked
  · exact .inl ⟨before, atRoot', needed⟩
  · exact .inr marked

/-- A window that needs painting has a handle, and the paint bit is set for it. -/
structure PaintInv (dskWin : Hwnd) (s : State) : Prop where
  real : ∀ needs, s.Needs dskWin needs → needs ≠ hwndNull
  flag : ∀ needs, s.Needs dskWin needs → s.world.queue.has .paint = true

namespace PaintInv

/-- The search finds a window when there is one. -/
theorem found (inv : PaintInv dskWin s) (needy : s.Needs dskWin needs) :
    ∃ root, s.world.queue.pRootMainWin = some root ∧ msgCheckHostedTree dskWin root ≠ hwndNull ∧
      s.Needs dskWin (msgCheckHostedTree dskWin root) := by
  obtain ⟨root, atRoot, below⟩ := needy
  have found :=
    msgCheckHostedTree_complete below fun hwnd within => inv.real hwnd ⟨root, atRoot, within⟩
  exact ⟨root, atRoot, found, root, atRoot, msgCheckHostedTree_sound dskWin root found⟩

theorem ok (inv : PaintInv dskWin s) : PaintOk dskWin s := by
  refine ⟨inv.flag, ?_⟩
  rintro env win args callback passes pMsg rfl unfiltered running noSync noNotify noPosted needs needy
  obtain ⟨root, atRoot, found, returned⟩ := inv.found needy
  have quiet : OnlyPaint s.world.queue := ⟨running, noSync, noNotify, noPosted⟩
  obtain ⟨after, pass, message, hwnd⟩ :=
    peekPass_paints (s := ⟨s.world, { Msg.zero with time := env.tickCounter }⟩) quiet
      (inv.flag needs needy) (unfiltered.wanted msgPaint) atRoot found
  refine ⟨after, unfiltered.returns pass, message, ?_⟩
  rw [hwnd]
  exact returned

/-- A step that invalidates no window and keeps the paint bit. -/
theorem kept (inv : PaintInv dskWin s)
    (fewer : ∀ needs, after.Needs dskWin needs → s.Needs dskWin needs)
    (paint : s.world.queue.has .paint = true → after.world.queue.has .paint = true) :
    PaintInv dskWin after :=
  ⟨fun needs needy => inv.real needs (fewer needs needy),
    fun needs needy => paint (inv.flag needs (fewer needs needy))⟩

theorem aside (inv : PaintInv dskWin s) (aside : Aside s.world.queue after.world.queue) :
    PaintInv dskWin after :=
  inv.kept (fun _ needy => needy.of_root aside.root) aside.paint

/-- `MSG_PAINT` is posted for the window invalidated. -/
theorem invalidate (inv : PaintInv dskWin s) {fuel : ℕ} {tick : Dword} {pad : Ptr} {hWnd : Hwnd}
    {wParam : WParam} {lParam : LParam} (real : hWnd ≠ hwndNull)
    (runs : exec (s.setRoot (s.world.queue.pRootMainWin.map (HostWin.mark hWnd true)))
      (.post fuel tick pad hWnd msgPaint wParam lParam) = some after) : PaintInv dskWin after := by
  simp only [exec] at runs
  obtain ⟨r, posts, rfl⟩ := Option.map_eq_some_iff.mp runs
  rw [postMessage, if_pos rfl] at posts
  obtain rfl := Option.some.inj posts
  refine ⟨fun needs needy => ?_, fun _ _ => ?_⟩
  · rcases State.needs_of_mark (needy.of_root rfl) with before | ⟨-, rfl⟩
    · exact inv.real needs before
    · exact real
  · exact (MsgQueue.has_setFlag _ _ _).trans (by simp)

/-- A pass of `PeekMessageEx`. -/
theorem peek (inv : PaintInv dskWin s) {env : PeekEnv} {args : PeekArgs} {pMsg : Msg}
    (desktop : env.hwndDesktop = dskWin) (runs : exec s (.peek env args pMsg) = some after) :
    PaintInv dskWin after := by
  obtain ⟨outcome, afterPass, pass, -, -, rfl⟩ := execPeek_inv runs
  have kept := peekPass_paintKept pass
  rw [desktop] at kept
  have fewer : ∀ needs, ((s.setWorld afterPass.world).hold outcome args.remove afterPass.pMsg).Needs
      dskWin needs → s.Needs dskWin needs := by
    intro needs needy
    refine needy.of_root ?_
    rw [State.world_hold]
    exact kept.root
  refine ⟨fun needs needy => inv.real needs (fewer needs needy), fun needs needy => ?_⟩
  rw [State.world_hold]
  have before := fewer needs needy
  rcases kept.paint (inv.flag needs before) with still | ⟨root, atRoot, nothing⟩
  · exact still
  · -- the search went through a tree with a window to be painted
    obtain ⟨root', atRoot', found, -⟩ := inv.found before
    obtain rfl : root = root' := Option.some.inj (atRoot.symm.trans atRoot')
    exact absurd nothing found

end PaintInv

/-- `EmptyMessageQueue` leaves the tree alone and clears the bit. -/
theorem exec_empty_paint {fuel : ℕ} (runs : exec s (.empty fuel) = some after) :
    after.world.queue.pRootMainWin = s.world.queue.pRootMainWin ∧
      after.world.queue.has .paint = false := by
  obtain ⟨w, returns, rfl⟩ := Option.map_eq_some_iff.mp runs
  obtain ⟨_, synced, heap, first, -, rfl⟩ := emptyMessageQueue_inv returns
  obtain ⟨_, _, -, rfl⟩ := cancelSync_frame first
  exact ⟨rfl, Dword.has_empty .paint⟩

theorem postQuitMessage_paint (q : MsgQueue) :
    (postQuitMessage q).pRootMainWin = q.pRootMainWin ∧
      (q.has .paint = true → (postQuitMessage q).has .paint = true) := by
  unfold postQuitMessage
  split
  · exact ⟨rfl, id⟩
  · refine ⟨rfl, fun before => ?_⟩
    show (q.setFlag .quit).has .paint = true
    rw [MsgQueue.has_setFlag, before, Bool.true_or]

/-- **Each event** keeps the requests, as long as no queue with a window to be painted is
emptied. -/
theorem paint_step {event : PaintEvent} (inv : PaintInv dskWin s)
    (clean : EmptiesClean dskWin s event)
    (step : paintStep dskWin s event after) : PaintInv dskWin after := by
  cases event with
  | invalidate fuel tick pad hWnd wParam lParam => exact inv.invalidate step.1 step.2
  | validate hWnd =>
    obtain rfl : _ = after := step
    refine inv.kept (fun needs needy => ?_) id
    rcases State.needs_of_mark needy with before | ⟨marked, -⟩
    · exact before
    · cases marked
  | windows root =>
    obtain ⟨fewer, rfl⟩ := step
    exact inv.kept fewer id
  | queue event =>
    obtain ⟨queued, runs⟩ := step
    by_cases central : event.Central
    · cases event with
      | postQuit =>
        rw [← Option.some.inj runs]
        obtain ⟨root, paint⟩ := postQuitMessage_paint s.world.queue
        exact inv.kept (fun needs needy => needy.of_root root) paint
      | peek env args pMsg => exact inv.peek queued runs
      | empty fuel =>
        have root := (exec_empty_paint runs).1
        refine ⟨fun needs needy => ?_, fun needs needy => ?_⟩
        · exact absurd (needy.of_root root) (clean needs)
        · exact absurd (needy.of_root root) (clean needs)
      | windows root => exact absurd queued id
      | _ => exact central.elim
    · exact inv.aside (exec_aside central runs)

end Invariant

/-! ### Runs -/

/-- A hosting tree of one main window. -/
def oneWindow (hwnd : Hwnd) : HostWin := .node (.node hwnd typeMainWin false []) []

theorem oneWindow_valid {dskWin hwnd needs : Hwnd} : ¬ (oneWindow hwnd).Needs dskWin needs := by
  rintro (⟨-, ⟨⟩ | ⟨-, member, -⟩⟩ | ⟨member, -⟩)
  · cases member
  · cases member

theorem oneWindow_invalid {dskWin hwnd : Hwnd} (notDesktop : hwnd ≠ dskWin) :
    ((oneWindow hwnd).mark hwnd true).Needs dskWin hwnd := by
  refine .window notDesktop ?_
  show PaintWin.Needs (.node hwnd typeMainWin (if hwnd = hwnd then true else false) []) hwnd
  rw [if_pos rfl]
  exact .self (by decide)

/-- The window 5 was created and invalidated. -/
def invalidated : State :=
  (State.blank.setQueue (State.blank.world.queue.setFlag .paint)).setRoot
    (some ((oneWindow 5).mark 5 true))

theorem invalidated_reachable : (paintSystem 1).ReachableBy (EmptiesClean 1) invalidated := by
  have start : (paintSystem 1).ReachableBy (EmptiesClean 1) State.blank := .start blank_init
  have hosted :
      (paintSystem 1).ReachableBy (EmptiesClean 1) (State.blank.setRoot (some (oneWindow 5))) := by
    refine start.by_event (.windows (some (oneWindow 5))) trivial ⟨?_, rfl⟩
    rintro needs ⟨root, atRoot, below⟩
    obtain rfl : oneWindow 5 = root := Option.some.inj atRoot
    exact absurd below oneWindow_valid
  exact hosted.by_event (PaintEvent.invalidate 1 0 none 5 0 0) trivial ⟨by decide, rfl⟩

theorem invalidated_needs : invalidated.Needs 1 5 :=
  ⟨(oneWindow 5).mark 5 true, rfl, oneWindow_invalid (by decide)⟩

/-- **No paint request is lost** in any state of any run that empties the queue only while no window
needs painting. -/
theorem paint_ok_when_emptied_clean {dskWin : Hwnd} {s : State}
    (reached : (paintSystem dskWin).ReachableBy (EmptiesClean dskWin) s) : PaintOk dskWin s := by
  refine (reached.invariant (PaintInv dskWin) ?_ ?_).ok
  · rintro _ ⟨defMsgqueueLen, iBufferLen, buffer, frames, -, rfl⟩
    refine ⟨?_, ?_⟩
    · rintro needs ⟨root, atRoot, -⟩
      cases atRoot
    · rintro needs ⟨root, atRoot, -⟩
      cases atRoot
  · rintro s event after - inv clean step
    exact paint_step inv clean step

/-- A request that is not lost. -/
theorem paint_ok_when_emptied_clean_invalidated : invalidated.Needs 1 5 ∧ PaintOk 1 invalidated :=
  ⟨invalidated_needs, paint_ok_when_emptied_clean invalidated_reachable⟩

/-- **Emptying the queue** while a window needs painting always loses its request. -/
theorem empty_breaks_paint {dskWin needs : Hwnd} {s after : State} {fuel : ℕ}
    (needy : s.Needs dskWin needs) (step : paintStep dskWin s (.queue (.empty fuel)) after) :
    ¬ PaintOk dskWin after := by
  obtain ⟨root, cleared⟩ := exec_empty_paint step.2
  intro ok
  have flag := ok.flag needs (needy.of_root root.symm)
  rw [cleared] at flag
  cases flag

/-- **A paint request is lost**: the queue is emptied while the window 5 is invalid. -/
theorem empty_loses_paint : ∃ s, (paintSystem 1).Reachable s ∧ s.Needs 1 5 ∧
    s.world.queue.has .paint = false ∧ ¬ PaintOk 1 s := by
  have reached : (paintSystem 1).Reachable invalidated :=
    invalidated_reachable.mono fun _ _ _ => trivial
  have runs : exec invalidated (.empty 1) = some _ := rfl
  have emptied := reached.by_event (PaintEvent.queue (.empty 1)) trivial ⟨trivial, runs⟩
  obtain ⟨root, cleared⟩ := exec_empty_paint runs
  exact ⟨_, emptied, invalidated_needs.of_root root.symm, cleared,
    empty_breaks_paint invalidated_needs ⟨trivial, runs⟩⟩

end Aple.Message
