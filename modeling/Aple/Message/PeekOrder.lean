/-
**The sources of a pass, in order.**

What a pass over a queue finds, as a function of the queue alone.

* `Qs.Drained`, `FlagsOnly` — the only thing that falling through a stage changes: a summary bit is
  cleared, over a container that has nothing to report.
* `lookQuit` … `lookTimer` — what each source has to offer for a filter; `peekFound` is the first
  offer in the order of the source text, and `offeredTime` the time that is left in `*pMsg` by the
  heads that were looked at.
* `look_congr` — clearing such bits changes no offer.
* **`peekPass_found`** — a pass ends with the first offer; without `PM_REMOVE` it changes nothing
  but such bits, unless a timer is served.
-/

import Aple.Message.PeekEffect
import Mathlib.Data.Option.Basic

namespace Aple.Message

open Aple.Lib

/-! ### What falling through changes -/

/-- The container that a bit summarises has nothing to report. -/
def Qs.Drained (env : PeekEnv) (q : MsgQueue) : Qs → Prop
  | .syncMsg => q.pFirstSyncMsg = none
  | .notifyMsg => q.pFirstNotifyMsg = none
  | .postMsg => q.readpos = q.writepos
  | .paint => ∃ root, q.pRootMainWin = some root ∧ msgCheckHostedTree env.hwndDesktop root = hwndNull
  | .quit | .input | .deskTimer => False

/-- Only summary bits over drained containers were cleared. -/
structure FlagsOnly (env : PeekEnv) (w w' : World) : Prop where
  heap : w'.heap = w.heap
  frames : w'.frames = w.frames
  queue : ∃ dwState, w'.queue = { w.queue with dwState := dwState }
  flags : ∀ flag, w'.queue.has flag = w.queue.has flag ∨
    flag.Drained env w.queue ∧ w'.queue.has flag = false

namespace FlagsOnly

variable {env : PeekEnv} {w w' w'' : World}

theorem refl (w : World) : FlagsOnly env w w := ⟨rfl, rfl, ⟨_, rfl⟩, fun _ => .inl rfl⟩

/-- What a bit summarises does not depend on the bits. -/
theorem drained (only : FlagsOnly env w w') (flag : Qs) :
    flag.Drained env w'.queue ↔ flag.Drained env w.queue := by
  obtain ⟨_, eq⟩ := only.queue
  rw [eq]
  cases flag <;> rfl

theorem trans (first : FlagsOnly env w w') (second : FlagsOnly env w' w'') :
    FlagsOnly env w w'' := by
  obtain ⟨_, eq⟩ := first.queue
  obtain ⟨state, eq'⟩ := second.queue
  refine ⟨second.heap.trans first.heap, second.frames.trans first.frames,
    ⟨state, by rw [eq', eq]⟩, fun flag => ?_⟩
  rcases second.flags flag with same | ⟨drained, cleared⟩
  · rcases first.flags flag with same' | ⟨drained, cleared⟩
    · exact .inl (same.trans same')
    · exact .inr ⟨drained, same.trans cleared⟩
  · exact .inr ⟨(first.drained flag).mp drained, cleared⟩

/-- Clearing one bit. -/
theorem clear (flag : Qs) (drained : flag.Drained env w.queue) :
    FlagsOnly env w { w with queue := w.queue.clearFlag flag } := by
  refine ⟨rfl, rfl, ⟨_, rfl⟩, fun flag' => ?_⟩
  by_cases same : flag = flag'
  · subst same
    exact .inr ⟨drained, by simp⟩
  · exact .inl (by simp [same])

/-- A bit over something that is not drained is as it was. -/
theorem kept (only : FlagsOnly env w w') (flag : Qs) (pending : ¬ flag.Drained env w.queue) :
    w'.queue.has flag = w.queue.has flag := by
  rcases only.flags flag with same | ⟨drained, -⟩
  · exact same
  · exact absurd drained pending

end FlagsOnly

/-! ### What each source offers -/

/-- The message without the hidden pointer. -/
def Msg.visible (msg : Msg) : Msg := { msg with pSyncMsg := none }

/-- A queue that is quitting. -/
def lookQuit (a : PeekArgs) (time : Dword) (w : World) : Option (Outcome × Msg) :=
  if w.queue.has .quit then some (.quit, ⟨a.hWnd, msgQuit, 0, 0, time, none⟩) else none

/-- The first synchronous message, when its bit is set. -/
def headSync (w : World) : Option (Addr × Msg) :=
  if w.queue.has .syncMsg then
    w.queue.pFirstSyncMsg.map fun first => (first, (w.frames first).msg)
  else none

def lookSync (a : PeekArgs) (w : World) : Option (Outcome × Msg) :=
  (headSync w).bind fun (first, msg) =>
    if isMsgWanted a msg.message then some (.got (.sync first), msg) else none

/-- The first notification, when its bit is set; reading a released node is a fault. -/
def headNotify (w : World) : Option (Option QMsg) :=
  if w.queue.has .notifyMsg then w.queue.pFirstNotifyMsg.map w.heap.cells else none

def lookNotify (a : PeekArgs) (w : World) : Option (Outcome × Msg) :=
  (headNotify w).bind fun
    | none => some (.fault, Msg.zero)
    | some node => if isMsgWanted a node.msg.message then some (.got .notify, node.msg) else none

/-- The entry at the read position, when the bit is set. -/
def headPosted (w : World) : Option Msg :=
  if w.queue.has .postMsg && w.queue.readpos != w.queue.writepos then
    some (w.queue.msg w.queue.readpos)
  else none

def lookPosted (env : PeekEnv) (a : PeekArgs) (w : World) : Option (Outcome × Msg) :=
  (headPosted w).bind fun msg =>
    if isMsgWanted a msg.message then
      some (.got .posted, checkCapturedMouseMessage env { msg with pSyncMsg := none })
    else none

/-- A window with an invalid region. -/
def lookPaint (env : PeekEnv) (a : PeekArgs) (time : Dword) (w : World) : Option (Outcome × Msg) :=
  if w.queue.has .paint && isMsgWanted a msgPaint then
    match w.queue.pRootMainWin with
    | none => some (.fault, Msg.zero)
    | some root =>
      let hNeedPaint := msgCheckHostedTree env.hwndDesktop root
      if hNeedPaint ≠ hwndNull then
        some (.got .paint, ⟨hNeedPaint, msgPaint, 0, env.invRgn hNeedPaint, time, none⟩)
      else none
  else none

/-- The desktop timer, for any filter. -/
def lookDeskTimer (env : PeekEnv) (time : Dword) (w : World) : Option (Outcome × Msg) :=
  if env.isDskQueue && w.queue.has .deskTimer then
    some (.got .deskTimer, ⟨env.hwndDesktop, msgTimeout, 0, 0, time, none⟩)
  else none

/-- The search for an expired slot. -/
def timerSearch (env : PeekEnv) (q : MsgQueue) : Option (Option ℕ) :=
  loop (timerSlotTurn env q) (env.defNrTimers + 1) q.firstTimerSlot

/-- The first expired timer. -/
def lookTimer (env : PeekEnv) (a : PeekArgs) (time : Dword) (w : World) : Option (Outcome × Msg) :=
  if w.queue.expiredTimerMask ≠ 0 ∧ isMsgWanted a msgTimer then
    match timerSearch env w.queue with
    | none | some none => some (.fault, Msg.zero)
    | some (some slot) =>
      (w.queue.timerSlots slot).map fun timer =>
        if timer.proc then (.callTimer slot timer, Msg.zero)
        else (.got .timer, ⟨timer.hWnd, msgTimer, timer.id, timer.ticksFired, time, none⟩)
  else none

/-- The time left in `*pMsg` by the heads that were copied into it. -/
def offeredTime (time : Dword) (w : World) : Dword :=
  let time := ((headSync w).map fun head => head.2.time).getD time
  let time := ((headNotify w).bind fun node => node.map fun node => node.msg.time).getD time
  ((headPosted w).map Msg.time).getD time

/-- The first offer in front of the timers; `time` is what `*pMsg` holds at the start of the pass. -/
def soonFound (env : PeekEnv) (a : PeekArgs) (time : Dword) (w : World) :
    Option (Outcome × Msg) :=
  lookQuit a time w
    <|> lookSync a w
    <|> lookNotify a w
    <|> lookPosted env a w
    <|> lookPaint env a (offeredTime time w) w
    <|> lookDeskTimer env (offeredTime time w) w

/-- The first offer. -/
def peekFound (env : PeekEnv) (a : PeekArgs) (time : Dword) (w : World) : Outcome × Msg :=
  (soonFound env a time w <|> lookTimer env a (offeredTime time w) w).getD (.nothing, Msg.zero)

/-! ### When a source offers nothing -/

section

variable {env : PeekEnv} {a : PeekArgs} {time : Dword} {w : World}

theorem lookQuit_none : lookQuit a time w = none ↔ w.queue.has .quit = false := by
  unfold lookQuit
  cases w.queue.has .quit <;> simp

theorem lookSync_none : lookSync a w = none ↔ SkipsSync a w := by
  unfold lookSync headSync SkipsSync
  cases w.queue.has .syncMsg <;> cases w.queue.pFirstSyncMsg <;> simp

/-- The head notification has not been released. -/
def NotifyLive (w : World) : Prop :=
  w.queue.has .notifyMsg = true → ∀ head, w.queue.pFirstNotifyMsg = some head →
    w.heap.cells head ≠ none

theorem lookNotify_none : lookNotify a w = none ↔ NotifyLive w ∧ SkipsNotify a w := by
  unfold lookNotify headNotify NotifyLive SkipsNotify
  cases w.queue.has .notifyMsg with
  | false => simp
  | true =>
    cases w.queue.pFirstNotifyMsg with
    | none => simp
    | some head =>
      cases cell : w.heap.cells head with
      | none => simp [cell]
      | some node =>
        simp only [if_true, Option.map_some, cell, Option.bind_some, Option.some.injEq]
        constructor
        · intro unwanted
          refine ⟨?_, ?_⟩
          · rintro - _ rfl
            simp [cell]
          · rintro - _ other rfl read
            rw [cell, Option.some.injEq] at read
            rw [← read]
            simpa using unwanted
        · rintro ⟨-, skips⟩
          simp [skips trivial head node rfl cell]

theorem lookPosted_none : lookPosted env a w = none ↔ SkipsPosted a w := by
  unfold lookPosted headPosted SkipsPosted
  cases w.queue.has .postMsg with
  | false => simp
  | true =>
    by_cases pending : w.queue.readpos = w.queue.writepos
    · simp [pending]
    · simp [pending]

/-- A wanted repaint request finds no window to repaint. -/
def SkipsPaint (env : PeekEnv) (a : PeekArgs) (w : World) : Prop :=
  w.queue.has .paint = true → isMsgWanted a msgPaint = true →
    ∃ root, w.queue.pRootMainWin = some root ∧ msgCheckHostedTree env.hwndDesktop root = hwndNull

theorem lookPaint_none : lookPaint env a time w = none ↔ SkipsPaint env a w := by
  unfold lookPaint SkipsPaint
  cases w.queue.has .paint with
  | false => simp
  | true =>
    cases isMsgWanted a msgPaint with
    | false => simp
    | true =>
      cases w.queue.pRootMainWin with
      | none => simp
      | some root =>
        by_cases valid : msgCheckHostedTree env.hwndDesktop root = hwndNull
        · simp [valid]
        · simp [valid]

/-- The queue is not the desktop's, or its timer has not ticked. -/
def SkipsDeskTimer (env : PeekEnv) (w : World) : Prop :=
  ¬ (env.isDskQueue = true ∧ w.queue.has .deskTimer = true)

theorem lookDeskTimer_none : lookDeskTimer env time w = none ↔ SkipsDeskTimer env w := by
  unfold lookDeskTimer SkipsDeskTimer
  cases env.isDskQueue <;> cases w.queue.has .deskTimer <;> simp

/-- A pass over the queue gets as far as the desktop timer. -/
structure SkipsToDeskTimer (env : PeekEnv) (a : PeekArgs) (w : World) : Prop where
  running : w.queue.has .quit = false
  sync : SkipsSync a w
  live : NotifyLive w
  notify : SkipsNotify a w
  posted : SkipsPosted a w
  paint : SkipsPaint env a w

/-- **Exactly then** there is nothing in front of the desktop timer. -/
theorem soonFound_of_skips (skips : SkipsToDeskTimer env a w) :
    soonFound env a time w = lookDeskTimer env (offeredTime time w) w := by
  unfold soonFound
  rw [lookQuit_none.mpr skips.running, lookSync_none.mpr skips.sync,
    lookNotify_none.mpr ⟨skips.live, skips.notify⟩, lookPosted_none.mpr skips.posted,
    lookPaint_none.mpr skips.paint]
  rfl

end

/-! ### Which source an offer is from -/

/-- The offers in front of the timers. Only the desktop timer is offered for every filter. -/
inductive SoonOffer (env : PeekEnv) (a : PeekArgs) (w : World) : Outcome × Msg → Prop
  | quit (msg : Msg) : w.queue.has .quit = true → SoonOffer env a w (.quit, msg)
  | sync (first : Addr) (msg : Msg) : headSync w = some (first, msg) →
      isMsgWanted a msg.message = true → SoonOffer env a w (.got (.sync first), msg)
  | notify (node : QMsg) : headNotify w = some (some node) →
      isMsgWanted a node.msg.message = true → SoonOffer env a w (.got .notify, node.msg)
  | posted (msg : Msg) : headPosted w = some msg → isMsgWanted a msg.message = true →
      SoonOffer env a w
        (.got .posted, checkCapturedMouseMessage env { msg with pSyncMsg := none })
  | paint (msg : Msg) : isMsgWanted a msgPaint = true → msg.message = msgPaint →
      SoonOffer env a w (.got .paint, msg)
  | deskTimer (msg : Msg) : SkipsToDeskTimer env a w → ¬ SkipsDeskTimer env w →
      msg.message = msgTimeout → SoonOffer env a w (.got .deskTimer, msg)
  | fault (msg : Msg) : SoonOffer env a w (.fault, msg)

theorem soonFound_offer {env : PeekEnv} {a : PeekArgs} {time : Dword} {w : World}
    {offer : Outcome × Msg} (found : soonFound env a time w = some offer) :
    SoonOffer env a w offer := by
  simp only [soonFound, Option.orElse_eq_some] at found
  rcases found with look | ⟨quit, look | ⟨sync, look | ⟨notify, look | ⟨posted, look | ⟨paint, look⟩⟩⟩⟩⟩
  · unfold lookQuit at look
    split at look
    · rename_i quitting
      rw [← Option.some.inj look]
      exact .quit _ quitting
    · cases look
  · obtain ⟨⟨first, msg⟩, head, look⟩ := Option.bind_eq_some_iff.mp look
    obtain ⟨wanted, rfl⟩ : isMsgWanted a msg.message = true ∧ (.got (.sync first), msg) = offer := by
      simpa using look
    exact .sync first msg head wanted
  · obtain ⟨node, head, look⟩ := Option.bind_eq_some_iff.mp look
    cases node with
    | none =>
      rw [← Option.some.inj look]
      exact .fault _
    | some node =>
      obtain ⟨wanted, rfl⟩ : isMsgWanted a node.msg.message = true ∧
        (.got .notify, node.msg) = offer := by simpa using look
      exact .notify node head wanted
  · obtain ⟨msg, head, look⟩ := Option.bind_eq_some_iff.mp look
    split at look
    · rename_i wanted
      rw [← Option.some.inj look]
      exact .posted msg head wanted
    · cases look
  · unfold lookPaint at look
    split at look
    · rename_i asked
      rw [Bool.and_eq_true] at asked
      split at look
      · rw [← Option.some.inj look]
        exact .fault _
      · simp only at look
        split at look
        · rw [← Option.some.inj look]
          exact .paint _ asked.2 rfl
        · cases look
    · cases look
  · obtain ⟨live, skipsNotify⟩ := lookNotify_none.mp notify
    have ticked : ¬ SkipsDeskTimer env w := fun skips => by
      rw [lookDeskTimer_none.mpr skips] at look
      cases look
    unfold lookDeskTimer at look
    split at look
    · rw [← Option.some.inj look]
      exact .deskTimer _ ⟨lookQuit_none.mp quit, lookSync_none.mp sync, live, skipsNotify,
        lookPosted_none.mp posted, lookPaint_none.mp paint⟩ ticked rfl
    · cases look

/-- A timer is offered only when timer messages are wanted. -/
theorem lookTimer_offer {env : PeekEnv} {a : PeekArgs} {time : Dword} {w : World} {source : Source}
    {msg : Msg} (look : lookTimer env a time w = some (.got source, msg)) :
    source = .timer ∧ msg.message = msgTimer ∧ isMsgWanted a msgTimer = true := by
  unfold lookTimer at look
  split at look
  · rename_i asked
    split at look
    · cases look
    · cases look
    · obtain ⟨timer, -, offer⟩ := Option.map_eq_some_iff.mp look
      split at offer
      · cases offer
      · obtain ⟨got, rfl⟩ := Prod.mk.inj offer
        cases got
        exact ⟨rfl, rfl, asked.2⟩
  · cases look

/-- The outcomes in which a timer is served. -/
def Outcome.ServesTimer : Outcome → Prop
  | .callTimer _ _ | .got .timer => True
  | _ => False

/-- Nothing in front of the timers serves one. -/
theorem soonFound_untimed {env : PeekEnv} {a : PeekArgs} {time : Dword} {w : World}
    {offer : Outcome × Msg} (found : soonFound env a time w = some offer) :
    ¬ offer.1.ServesTimer := by
  cases soonFound_offer found <;> exact id

/-! ### Cleared bits change no offer -/

section

variable {env : PeekEnv} {a : PeekArgs} {time : Dword} {w w' : World}

theorem FlagsOnly.headSync (only : FlagsOnly env w w') : headSync w' = headSync w := by
  obtain ⟨_, eq⟩ := only.queue
  have samePtr : w'.queue.pFirstSyncMsg = w.queue.pFirstSyncMsg := by rw [eq]
  unfold Message.headSync
  rw [samePtr, only.frames]
  cases pending : w.queue.pFirstSyncMsg with
  | none => simp
  | some first => rw [only.kept _ fun drained => by simp [Qs.Drained, pending] at drained]

theorem FlagsOnly.headNotify (only : FlagsOnly env w w') : headNotify w' = headNotify w := by
  obtain ⟨_, eq⟩ := only.queue
  have samePtr : w'.queue.pFirstNotifyMsg = w.queue.pFirstNotifyMsg := by rw [eq]
  unfold Message.headNotify
  rw [samePtr, only.heap]
  cases pending : w.queue.pFirstNotifyMsg with
  | none => simp
  | some first => rw [only.kept _ fun drained => by simp [Qs.Drained, pending] at drained]

theorem FlagsOnly.headPosted (only : FlagsOnly env w w') : headPosted w' = headPosted w := by
  obtain ⟨_, eq⟩ := only.queue
  have sameRing : w'.queue.readpos = w.queue.readpos ∧ w'.queue.writepos = w.queue.writepos ∧
      w'.queue.msg = w.queue.msg := by rw [eq]; exact ⟨rfl, rfl, rfl⟩
  unfold Message.headPosted
  rw [sameRing.1, sameRing.2.1, sameRing.2.2]
  by_cases pending : w.queue.readpos = w.queue.writepos
  · simp [pending]
  · rw [only.kept .postMsg pending]

theorem FlagsOnly.lookSync (only : FlagsOnly env w w') : lookSync a w' = lookSync a w := by
  unfold Message.lookSync
  rw [only.headSync]

theorem FlagsOnly.lookNotify (only : FlagsOnly env w w') : lookNotify a w' = lookNotify a w := by
  unfold Message.lookNotify
  rw [only.headNotify]

theorem FlagsOnly.lookPosted (only : FlagsOnly env w w') :
    lookPosted env a w' = lookPosted env a w := by
  unfold Message.lookPosted
  rw [only.headPosted]

theorem FlagsOnly.lookPaint (only : FlagsOnly env w w') :
    lookPaint env a time w' = lookPaint env a time w := by
  obtain ⟨_, eq⟩ := only.queue
  have sameRoot : w'.queue.pRootMainWin = w.queue.pRootMainWin := by rw [eq]
  unfold Message.lookPaint
  rw [sameRoot]
  rcases only.flags .paint with same | ⟨⟨root, atRoot, valid⟩, cleared⟩
  · rw [same]
  · rw [cleared, atRoot]
    simp [valid]

theorem FlagsOnly.lookDeskTimer (only : FlagsOnly env w w') :
    lookDeskTimer env time w' = lookDeskTimer env time w := by
  unfold Message.lookDeskTimer
  rw [only.kept .deskTimer id]

theorem FlagsOnly.lookTimer (only : FlagsOnly env w w') :
    lookTimer env a time w' = lookTimer env a time w := by
  obtain ⟨_, eq⟩ := only.queue
  unfold Message.lookTimer
  rw [eq]
  rfl

theorem FlagsOnly.lookQuit (only : FlagsOnly env w w') : lookQuit a time w' = lookQuit a time w := by
  unfold Message.lookQuit
  rw [only.kept .quit id]

theorem FlagsOnly.offeredTime (only : FlagsOnly env w w') :
    offeredTime time w' = offeredTime time w := by
  unfold Message.offeredTime
  rw [only.headSync, only.headNotify, only.headPosted]

/-- **Cleared bits change nothing that is found in front of the timers.** -/
theorem FlagsOnly.soonFound (only : FlagsOnly env w w') :
    soonFound env a time w' = soonFound env a time w := by
  unfold Message.soonFound
  rw [only.lookQuit, only.lookSync, only.lookNotify, only.lookPosted, only.offeredTime,
    only.lookPaint, only.lookDeskTimer]

end

/-! ### Stage by stage -/

variable {env : PeekEnv} {a : PeekArgs} {s : PeekState}

/-- The timers of two queues are the same. -/
structure SameTimers (q q' : MsgQueue) : Prop where
  firstTimerSlot : q'.firstTimerSlot = q.firstTimerSlot
  timerSlots : q'.timerSlots = q.timerSlots
  expiredTimerMask : q'.expiredTimerMask = q.expiredTimerMask

theorem SameTimers.trans {q q' q'' : MsgQueue} (first : SameTimers q q')
    (second : SameTimers q' q'') : SameTimers q q'' :=
  ⟨second.firstTimerSlot.trans first.firstTimerSlot, second.timerSlots.trans first.timerSlots,
    second.expiredTimerMask.trans first.expiredTimerMask⟩

theorem FlagsOnly.sameTimers {w w' : World} (only : FlagsOnly env w w') :
    SameTimers w.queue w'.queue := by
  obtain ⟨_, eq⟩ := only.queue
  rw [eq]
  exact ⟨rfl, rfl, rfl⟩

/-- A stage that falls through offers nothing and leaves `time` in `*pMsg`. -/
structure Falls (env : PeekEnv) (s : PeekState) (look : Option (Outcome × Msg)) (time : Dword)
    (s' : PeekState) : Prop where
  nothing : look = none
  only : FlagsOnly env s.world s'.world
  time : s'.pMsg.time = time

/-- A stage that jumps out returns its offer. Only `PM_REMOVE` and a timer change more than summary
bits. -/
structure Ends (env : PeekEnv) (a : PeekArgs) (s : PeekState) (look : Option (Outcome × Msg))
    (outcome : Outcome) (after : PeekState) : Prop where
  found : ∃ msg, look = some (outcome, msg) ∧
    ∀ source, outcome = .got source → after.pMsg.visible = msg.visible
  left : a.remove = false → ¬ outcome.ServesTimer → FlagsOnly env s.world after.world
  timers : ¬ outcome.ServesTimer → SameTimers s.world.queue after.world.queue

/-- What a stage does in terms of its offer. -/
abbrev Offers (env : PeekEnv) (a : PeekArgs) (s : PeekState) (look : Option (Outcome × Msg))
    (time : Dword) : Stage → Prop :=
  Stage.All (Falls env s look time) (Ends env a s look)

theorem peekQuit_offers : Offers env a s (lookQuit a s.pMsg.time s.world) s.pMsg.time
    (peekQuit a s) := by
  unfold peekQuit lookQuit
  by_cases quitting : s.world.queue.has .quit = true
  · rw [if_pos quitting, if_pos quitting]
    refine ⟨⟨_, rfl, fun source got => by cases got⟩, fun keeps _ => ?_, fun _ => ?_⟩
    · simp only [keeps]
      exact .refl _
    · simp only [PeekState.setQueue]
      split
      · split <;> exact ⟨rfl, rfl, rfl⟩
      · exact ⟨rfl, rfl, rfl⟩
  · rw [if_neg quitting, if_neg quitting]
    exact ⟨rfl, .refl _, rfl⟩

theorem peekSync_offers : Offers env a s (lookSync a s.world)
    (((headSync s.world).map fun head => head.2.time).getD s.pMsg.time) (peekSync a s) := by
  unfold peekSync lookSync headSync
  by_cases flagged : s.world.queue.has .syncMsg = true
  · simp only [if_pos flagged]
    cases head : s.world.queue.pFirstSyncMsg with
    | none => exact ⟨rfl, .clear _ head, rfl⟩
    | some first =>
      simp only [Option.map_some, Option.bind_some]
      by_cases wanted : isMsgWanted a (s.world.frames first).msg.message = true
      · simp only [if_pos wanted]
        refine ⟨⟨_, rfl, fun _ _ => rfl⟩, fun keeps _ => ?_, fun _ => ?_⟩
        · rw [keeps]
          exact .refl _
        · split <;> exact ⟨rfl, rfl, rfl⟩
      · simp only [if_neg wanted]
        exact ⟨rfl, .refl _, rfl⟩
  · simp only [if_neg flagged]
    exact ⟨rfl, .refl _, rfl⟩

theorem peekNotify_offers : Offers env a s (lookNotify a s.world)
    (((headNotify s.world).bind fun node => node.map fun node => node.msg.time).getD s.pMsg.time)
    (peekNotify a s) := by
  unfold peekNotify lookNotify headNotify
  by_cases flagged : s.world.queue.has .notifyMsg = true
  · simp only [if_pos flagged]
    cases head : s.world.queue.pFirstNotifyMsg with
    | none => exact ⟨rfl, .clear _ head, rfl⟩
    | some first =>
      simp only [Option.map_some, Option.bind_some]
      cases cell : s.world.heap.cells first with
      | none =>
        exact ⟨⟨_, rfl, fun source got => by cases got⟩, fun _ _ => .refl _,
          fun _ => ⟨rfl, rfl, rfl⟩⟩
      | some node =>
        by_cases wanted : isMsgWanted a node.msg.message = true
        · simp only [if_pos wanted]
          by_cases remove : a.remove = true
          · rw [if_pos remove]
            have freed : removeFirstNotify first node s.world = some { s.world with
                heap := ⟨Function.update s.world.heap.cells first none, s.world.heap.allocated,
                  first :: s.world.heap.freed⟩
                queue := { s.world.queue with
                  pFirstNotifyMsg := node.next
                  pLastNotifyMsg :=
                    if node.next = none then none else s.world.queue.pLastNotifyMsg } } := by
              simp [removeFirstNotify, QMsgHeap.free, cell]
            rw [freed]
            exact ⟨⟨_, rfl, fun _ _ => rfl⟩, fun keeps _ => absurd remove (by simp [keeps]),
              fun _ => ⟨rfl, rfl, rfl⟩⟩
          · rw [if_neg remove]
            exact ⟨⟨_, rfl, fun _ _ => rfl⟩, fun _ _ => .refl _, fun _ => ⟨rfl, rfl, rfl⟩⟩
        · simp only [if_neg wanted]
          exact ⟨rfl, .refl _, rfl⟩
  · simp only [if_neg flagged]
    exact ⟨rfl, .refl _, rfl⟩

theorem peekPosted_offers : Offers env a s (lookPosted env a s.world)
    (((headPosted s.world).map Msg.time).getD s.pMsg.time) (peekPosted env a s) := by
  unfold peekPosted lookPosted headPosted
  by_cases flagged : s.world.queue.has .postMsg = true
  · by_cases pending : s.world.queue.readpos ≠ s.world.queue.writepos
    · have looks : (s.world.queue.has .postMsg &&
          s.world.queue.readpos != s.world.queue.writepos) = true := by simp [flagged, pending]
      simp only [if_pos flagged, if_pos pending, if_pos looks, Option.bind_some, Option.map_some]
      by_cases wanted : isMsgWanted a (s.world.queue.msg s.world.queue.readpos).message = true
      · simp only [if_pos wanted]
        refine ⟨⟨_, rfl, fun _ _ => rfl⟩, fun keeps _ => ?_, fun _ => ?_⟩
        · rw [keeps]
          exact .refl _
        · show SameTimers _ (PeekState.setQueue s _).world.queue
          simp only [PeekState.setQueue]
          split <;> exact ⟨rfl, rfl, rfl⟩
      · simp only [if_neg wanted]
        exact ⟨rfl, .refl _, rfl⟩
    · have skips : ¬ (s.world.queue.has .postMsg &&
          s.world.queue.readpos != s.world.queue.writepos) = true := by
        simpa [flagged] using pending
      simp only [if_pos flagged, if_neg pending, if_neg skips]
      exact ⟨rfl, .clear .postMsg (not_not.mp pending), rfl⟩
  · have skips : ¬ (s.world.queue.has .postMsg &&
        s.world.queue.readpos != s.world.queue.writepos) = true := by simp [flagged]
    simp only [if_neg flagged, if_neg skips]
    exact ⟨rfl, .refl _, rfl⟩

theorem peekPaint_offers : Offers env a s (lookPaint env a s.pMsg.time s.world) s.pMsg.time
    (peekPaint env a s) := by
  unfold peekPaint lookPaint
  by_cases asked : (s.world.queue.has .paint && isMsgWanted a msgPaint) = true
  · simp only [if_pos asked]
    cases atRoot : s.world.queue.pRootMainWin with
    | none =>
      exact ⟨⟨_, rfl, fun source got => by cases got⟩, fun _ _ => .refl _,
        fun _ => ⟨rfl, rfl, rfl⟩⟩
    | some root =>
      by_cases invalid : msgCheckHostedTree env.hwndDesktop root ≠ hwndNull
      · simp only [if_pos invalid]
        exact ⟨⟨_, rfl, fun _ _ => rfl⟩, fun _ _ => .refl _, fun _ => ⟨rfl, rfl, rfl⟩⟩
      · simp only [if_neg invalid]
        exact ⟨rfl, .clear .paint ⟨root, atRoot, not_not.mp invalid⟩, rfl⟩
  · simp only [if_neg asked]
    exact ⟨rfl, .refl _, rfl⟩

theorem peekDeskTimer_offers : Offers env a s (lookDeskTimer env s.pMsg.time s.world) s.pMsg.time
    (peekDeskTimer env a s) := by
  unfold peekDeskTimer lookDeskTimer
  by_cases ticked : (env.isDskQueue && s.world.queue.has .deskTimer) = true
  · simp only [if_pos ticked]
    refine ⟨⟨_, rfl, fun _ _ => rfl⟩, fun keeps _ => ?_, fun _ => ?_⟩
    · rw [keeps]
      exact .refl _
    · simp only [PeekState.setQueue]
      split <;> exact ⟨rfl, rfl, rfl⟩
  · simp only [if_neg ticked]
    exact ⟨rfl, .refl _, rfl⟩

/-- The queue after slot `slot` was served. -/
def MsgQueue.served (env : PeekEnv) (q : MsgQueue) (slot : ℕ) : MsgQueue :=
  { q with
    firstTimerSlot := (q.firstTimerSlot + 1) % env.defNrTimers
    expiredTimerMask := q.expiredTimerMask &&& ~~~BitVec.twoPow 64 slot }

/-- The timer stage serves the slot that the search finds, when a timer is installed there. -/
inductive TimerStage (env : PeekEnv) (a : PeekArgs) (s : PeekState) : Stage → Prop
  /-- No timer has expired, or timers are not wanted. -/
  | skipped : ¬ (s.world.queue.expiredTimerMask ≠ 0 ∧ isMsgWanted a msgTimer = true) →
      TimerStage env a s (.ok s)
  | fault : s.world.queue.expiredTimerMask ≠ 0 → isMsgWanted a msgTimer = true →
      (∀ slot, timerSearch env s.world.queue ≠ some (some slot)) →
      TimerStage env a s (.error (.fault, s))
  | vacant (slot : ℕ) : s.world.queue.expiredTimerMask ≠ 0 → isMsgWanted a msgTimer = true →
      timerSearch env s.world.queue = some (some slot) → s.world.queue.timerSlots slot = none →
      TimerStage env a s (.ok (s.setQueue { s.world.queue with
        firstTimerSlot := (s.world.queue.firstTimerSlot + 1) % env.defNrTimers }))
  | call (slot : ℕ) (timer : Timer) : s.world.queue.expiredTimerMask ≠ 0 →
      isMsgWanted a msgTimer = true → timerSearch env s.world.queue = some (some slot) →
      s.world.queue.timerSlots slot = some timer → timer.proc = true →
      TimerStage env a s (.error (.callTimer slot timer, s.setQueue (s.world.queue.served env slot)))
  | got (slot : ℕ) (timer : Timer) : s.world.queue.expiredTimerMask ≠ 0 →
      isMsgWanted a msgTimer = true → timerSearch env s.world.queue = some (some slot) →
      s.world.queue.timerSlots slot = some timer → timer.proc = false →
      TimerStage env a s (.error (.got .timer, { s.setQueue (s.world.queue.served env slot) with
        pMsg := ⟨timer.hWnd, msgTimer, timer.id, timer.ticksFired, s.pMsg.time, none⟩ }))

theorem peekTimer_stage (env : PeekEnv) (a : PeekArgs) (s : PeekState) :
    TimerStage env a s (peekTimer env a s) := by
  unfold peekTimer
  by_cases asked : s.world.queue.expiredTimerMask ≠ 0 ∧ isMsgWanted a msgTimer = true
  · rw [if_pos asked]
    change TimerStage env a s (match timerSearch env s.world.queue with
      | none | some none => _
      | some (some slot) => _)
    cases search : timerSearch env s.world.queue with
    | none => exact .fault asked.1 asked.2 fun slot same => by rw [search] at same; cases same
    | some found =>
      cases found with
      | none => exact .fault asked.1 asked.2 fun slot same => by rw [search] at same; cases same
      | some slot =>
        simp only
        cases installed : s.world.queue.timerSlots slot with
        | none => exact .vacant slot asked.1 asked.2 search installed
        | some timer =>
          change TimerStage env a s (if timer.proc = true then _ else _)
          by_cases proc : timer.proc = true
          · rw [if_pos proc]
            exact .call slot timer asked.1 asked.2 search installed proc
          · rw [if_neg proc]
            exact .got slot timer asked.1 asked.2 search installed (by simpa using proc)
  · rw [if_neg asked]
    exact .skipped asked

theorem TimerStage.look {stage : Stage} (is : TimerStage env a s stage) :
    stage.All (fun _ => lookTimer env a s.pMsg.time s.world = none)
      (fun outcome after => ∃ msg, lookTimer env a s.pMsg.time s.world = some (outcome, msg) ∧
        ∀ source, outcome = .got source → after.pMsg.visible = msg.visible) := by
  cases is with
  | skipped asked => exact if_neg asked
  | fault pending wanted search =>
    refine ⟨Msg.zero, ?_, fun source got => by cases got⟩
    unfold lookTimer
    rw [if_pos ⟨pending, wanted⟩]
    split
    · rfl
    · rfl
    · exact absurd ‹_› (search _)
  | vacant slot pending wanted search vacant =>
    show lookTimer env a s.pMsg.time s.world = none
    unfold lookTimer
    rw [if_pos ⟨pending, wanted⟩]
    simp [search, vacant]
  | call slot timer pending wanted search installed proc =>
    refine ⟨Msg.zero, ?_, fun source got => by cases got⟩
    unfold lookTimer
    rw [if_pos ⟨pending, wanted⟩]
    simp [search, installed, proc]
  | got slot timer pending wanted search installed proc =>
    refine ⟨_, ?_, fun _ _ => rfl⟩
    unfold lookTimer
    rw [if_pos ⟨pending, wanted⟩]
    simp [search, installed, proc]

/-! ### A whole pass -/

/-- The stages in front of the timers. -/
def peekSources (env : PeekEnv) (a : PeekArgs) (s : PeekState) : Stage := do
  let s ← peekQuit a s
  let s ← peekSync a s
  let s ← peekNotify a s
  let s ← peekPosted env a s
  let s ← peekPaint env a s
  peekDeskTimer env a s

theorem peekStages_eq (env : PeekEnv) (a : PeekArgs) (s : PeekState) :
    peekStages env a s = peekSources env a s >>= peekTimer env a := by
  simp only [peekStages, peekSources, bind_assoc]

/-- One stage after the other. -/
theorem Stage.All.then_offers {look rest : Option (Outcome × Msg)} {time later : Dword}
    {stage : Stage} {stages : PeekState → Stage} (first : Offers env a s look time stage)
    (others : ∀ s', Falls env s look time s' → Offers env a s' rest later (stages s')) :
    Offers env a s (look <|> rest) later (stage >>= stages) := by
  cases stage with
  | ok s' =>
    have first : Falls env s look time s' := first
    show Stage.All _ _ (stages s')
    have second := others s' first
    cases outcome : stages s' with
    | ok after =>
      rw [outcome] at second
      exact ⟨by rw [first.nothing, second.nothing]; rfl, first.only.trans second.only, second.time⟩
    | error jump =>
      rw [outcome] at second
      refine ⟨?_, fun keeps untimed => first.only.trans (second.left keeps untimed),
        fun untimed => first.only.sameTimers.trans (second.timers untimed)⟩
      rw [first.nothing]
      exact second.found
  | error jump =>
    obtain ⟨⟨msg, found, same⟩, left, timers⟩ := first
    exact ⟨⟨msg, by rw [found]; rfl, same⟩, left, timers⟩

/-- **The stages in front of the timers** end with their first offer. -/
theorem peekSources_offers : Offers env a s (soonFound env a s.pMsg.time s.world)
    (offeredTime s.pMsg.time s.world) (peekSources env a s) := by
  refine peekQuit_offers.then_offers fun s₁ fell => ?_
  have only := fell.only
  have sync : Offers env a s₁ _ _ _ := peekSync_offers
  rw [fell.time, only.headSync, only.lookSync] at sync
  refine sync.then_offers fun s₂ fell => ?_
  replace only := only.trans fell.only
  have notify : Offers env a s₂ _ _ _ := peekNotify_offers
  rw [fell.time, only.headNotify, only.lookNotify] at notify
  refine notify.then_offers fun s₃ fell => ?_
  replace only := only.trans fell.only
  have posted : Offers env a s₃ _ _ _ := peekPosted_offers
  rw [fell.time, only.headPosted, only.lookPosted] at posted
  refine posted.then_offers fun s₄ fell => ?_
  replace only := only.trans fell.only
  have paint : Offers env a s₄ _ _ _ := peekPaint_offers
  rw [fell.time, only.lookPaint] at paint
  refine paint.then_offers fun s₅ fell => ?_
  replace only := only.trans fell.only
  have deskTimer : Offers env a s₅ _ _ _ := peekDeskTimer_offers
  rw [fell.time, only.lookDeskTimer] at deskTimer
  exact deskTimer

/-- What a pass makes of the end of its stages. -/
def Stage.close (env : PeekEnv) : Stage → Outcome × PeekState
  | .ok s => (.nothing, s)
  | .error (outcome, s) => (outcome, outcome.land env s)

theorem peekPass_eq (env : PeekEnv) (a : PeekArgs) (s : PeekState) :
    peekPass env a s = (peekStages env a s).close env := by
  unfold peekPass
  cases peekStages env a s with
  | ok s' => rfl
  | error jump => rfl

/-- The two halves of a pass. -/
inductive PassEnds (env : PeekEnv) (a : PeekArgs) (s : PeekState) : Outcome × PeekState → Prop
  | soon (outcome : Outcome) (after : PeekState) :
      Ends env a s (soonFound env a s.pMsg.time s.world) outcome after →
      PassEnds env a s (outcome, outcome.land env after)
  | late (s' : PeekState) (stage : Stage) :
      Falls env s (soonFound env a s.pMsg.time s.world) (offeredTime s.pMsg.time s.world) s' →
      TimerStage env a s' stage → PassEnds env a s (stage.close env)

theorem peekPass_ends (env : PeekEnv) (a : PeekArgs) (s : PeekState) :
    PassEnds env a s (peekPass env a s) := by
  have offers : Offers env a s _ _ (peekSources env a s) := peekSources_offers
  rw [peekPass_eq, peekStages_eq]
  cases result : peekSources env a s with
  | ok s' =>
    rw [result] at offers
    exact .late s' _ offers (peekTimer_stage env a s')
  | error jump =>
    rw [result] at offers
    exact .soon jump.1 jump.2 offers

@[simp] theorem Outcome.land_pMsg (env : PeekEnv) (outcome : Outcome) (s : PeekState) :
    (outcome.land env s).pMsg = s.pMsg := by
  cases outcome <;> first | rfl | exact gotRet_pMsg env s

/-- **A pass ends with the first offer.** -/
theorem peekPass_found (env : PeekEnv) (a : PeekArgs) (s : PeekState) :
    (peekPass env a s).1 = (peekFound env a s.pMsg.time s.world).1 ∧
      ∀ source, (peekPass env a s).1 = .got source →
        (peekPass env a s).2.pMsg.visible =
          (peekFound env a s.pMsg.time s.world).2.visible := by
  unfold peekFound
  have ended := peekPass_ends env a s
  generalize peekPass env a s = pass at ended ⊢
  cases ended with
  | soon outcome after ends =>
    obtain ⟨msg, found, same⟩ := ends.found
    rw [found]
    refine ⟨rfl, fun source got => ?_⟩
    rw [Outcome.land_pMsg]
    exact same source got
  | late s' stage falls stages =>
    have look := stages.look
    rw [falls.time, falls.only.lookTimer] at look
    rw [falls.nothing]
    cases stage with
    | ok after =>
      have look : lookTimer env a _ s.world = none := look
      rw [look]
      exact ⟨rfl, fun source got => by cases got⟩
    | error jump =>
      obtain ⟨outcome, after⟩ := jump
      obtain ⟨msg, found, same⟩ := look
      rw [found]
      refine ⟨rfl, fun source got => ?_⟩
      show (outcome.land env after).pMsg.visible = _
      rw [Outcome.land_pMsg]
      exact same source got

/-! ### Without PM_REMOVE -/

/-- What a peek that leaves the message may do: clear summary bits over drained containers, restart
the idle counter, advance the first timer slot. -/
structure LeftInQueue (env : PeekEnv) (w w' : World) : Prop where
  heap : w'.heap = w.heap
  frames : w'.frames = w.frames
  queue : ∃ dwState slot idle, w'.queue = { w.queue with
    dwState := dwState, firstTimerSlot := slot, idleCounter := idle }
  flags : ∀ flag, w'.queue.has flag = w.queue.has flag ∨
    flag.Drained env w.queue ∧ w'.queue.has flag = false

theorem FlagsOnly.left {w w' : World} (only : FlagsOnly env w w') (slot idle : ℕ) :
    LeftInQueue env w { w' with queue := { w'.queue with
      firstTimerSlot := slot, idleCounter := idle } } := by
  obtain ⟨heap, frames, ⟨state, eq⟩, flags⟩ := only
  exact ⟨heap, frames, ⟨state, slot, idle, by rw [eq]⟩, flags⟩

/-- The label behind a jump restarts the idle counter at most. -/
theorem FlagsOnly.land {w : World} {s' : PeekState} (only : FlagsOnly env w s'.world)
    (outcome : Outcome) : LeftInQueue env w (outcome.land env s').world := by
  have stays : LeftInQueue env w s'.world := only.left _ _
  cases outcome with
  | got source =>
    show LeftInQueue env w (gotRet env s').world
    unfold gotRet
    split
    · exact only.left _ 0
    · exact stays
  | quit | callTimer slot timer | nothing | fault => exact stays

/-- **A peek without `PM_REMOVE`** leaves everything in the queue, unless a timer is served. -/
theorem peekPass_keeps (keeps : a.remove = false) {outcome : Outcome} {after : PeekState}
    (pass : peekPass env a s = (outcome, after)) (untimed : ¬ outcome.ServesTimer) :
    LeftInQueue env s.world after.world := by
  have ended := peekPass_ends env a s
  rw [pass] at ended
  generalize same : (outcome, after) = result at ended
  cases ended with
  | soon outcome' after' ends =>
    obtain ⟨rfl, rfl⟩ := Prod.mk.inj same
    exact (ends.left keeps untimed).land outcome
  | late s' stage falls stages =>
    cases stages with
    | skipped =>
      obtain ⟨rfl, rfl⟩ := Prod.mk.inj same
      exact falls.only.left _ _
    | fault =>
      obtain ⟨rfl, rfl⟩ := Prod.mk.inj same
      exact falls.only.left _ _
    | vacant slot =>
      obtain ⟨rfl, rfl⟩ := Prod.mk.inj same
      exact falls.only.left _ s'.world.queue.idleCounter
    | call slot timer =>
      obtain ⟨rfl, rfl⟩ := Prod.mk.inj same
      exact absurd trivial untimed
    | got slot timer =>
      obtain ⟨rfl, rfl⟩ := Prod.mk.inj same
      exact absurd trivial untimed

end Aple.Message
