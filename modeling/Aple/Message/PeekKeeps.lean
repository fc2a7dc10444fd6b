/-
**Does PM_NOREMOVE leave the message in the queue?**

* `ServesTimer` — a pass over the queue gets as far as an expired timer.
* `PeekLeaves` — the contract: whatever a call without `PM_REMOVE` returns, it only cleared summary
  bits over drained containers, and after `TRUE` the same call with `PM_REMOVE` returns the message.
* `timerSearch_hit` — the search only ends at a slot that has expired.
* `loses_of_serves` — whatever its callbacks do, as long as they let no timer expire, a call that
  serves a timer has lost it when it returns.
* **`peek_leaves_iff`** — the contract holds exactly when the call serves no timer: the timer branch
  clears the bit of its slot for every remove flag.
-/

import Aple.Message.FilterFirst

namespace Aple.Message

open Aple.Lib

variable {env : PeekEnv} {win : Windows} {a : PeekArgs} {w : World}

/-- A pass gets as far as the timers, and the first expired slot has one. -/
structure ServesTimer (env : PeekEnv) (a : PeekArgs) (w : World) : Prop where
  skips : SkipsToDeskTimer env a w
  deskTimer : SkipsDeskTimer env w
  expired : w.queue.expiredTimerMask ≠ 0
  wanted : isMsgWanted a msgTimer = true
  installed : ∃ slot timer, timerSearch env w.queue = some (some slot) ∧
    w.queue.timerSlots slot = some timer

/-- The same arguments with `PM_REMOVE`. -/
def PeekArgs.removing (a : PeekArgs) : PeekArgs := { a with uRemoveMsg := pmRemove }

/-- The contract of a call without `PM_REMOVE`. -/
def PeekLeaves (env : PeekEnv) (win : Windows) (a : PeekArgs) (w : World) : Prop :=
  ∀ callback passes pMsg returned after,
    peekMessageEx env win a callback passes pMsg w = some (returned, after) →
      LeftInQueue env w after.world ∧
      (returned = true → ∀ callback' passes' pMsg', ∃ after',
        peekMessageEx env win a.removing callback' (passes' + 1) pMsg' after.world =
          some (true, after') ∧
        after'.pMsg.visible = after.pMsg.visible)

/-! ### What the timers do not change -/

theorem LeftInQueue.soonFound {w' : World} (left : LeftInQueue env w w') (time : Dword) :
    soonFound env a time w' = soonFound env a time w := by
  obtain ⟨heap, frames, ⟨state, slot, idle, eq⟩, flags⟩ := left
  have only : FlagsOnly env w
      { w' with queue := { w'.queue with
        firstTimerSlot := w.queue.firstTimerSlot, idleCounter := w.queue.idleCounter } } :=
    ⟨heap, frames, ⟨state, by rw [eq]⟩, flags⟩
  exact only.soonFound

/-- The search ends at a slot that has expired. -/
theorem timerSearch_hit {q : MsgQueue} {slot : ℕ} (search : timerSearch env q = some (some slot)) :
    q.expiredTimerMask.getLsbD slot = true := by
  refine loop_partial (fun _ => True)
    (fun found => ∀ slot, found = some slot → q.expiredTimerMask.getLsbD slot = true) ?_ trivial
    search slot rfl
  rintro state out - turn
  unfold timerSlotTurn at turn
  split at turn
  · rename_i hit
    rw [← Option.some.inj turn]
    rintro _ same
    rw [← Option.some.inj same]
    exact hit
  · simp only at turn
    split at turn <;> rw [← Option.some.inj turn]
    · rintro _ same
      cases same
    · exact trivial

/-- Serving a slot clears its bit. -/
theorem served_bit (env : PeekEnv) (q : MsgQueue) (slot : ℕ) :
    (q.served env slot).expiredTimerMask.getLsbD slot = false := by
  by_cases inside : slot < 64
  · simp [MsgQueue.served, inside]
  · exact BitVec.getLsbD_of_ge _ slot (Nat.le_of_not_lt inside)

/-! ### Without a timer -/

theorem lookTimer_none_of_not_serves (time : Dword) (skips : SkipsToDeskTimer env a w)
    (deskTimer : SkipsDeskTimer env w) (unserved : ¬ ServesTimer env a w) :
    ∀ outcome msg, lookTimer env a time w = some (outcome, msg) → outcome = .fault := by
  intro outcome msg look
  unfold lookTimer at look
  split at look
  · rename_i asked
    split at look
    · rw [← (Prod.mk.inj (Option.some.inj look)).1]
    · rw [← (Prod.mk.inj (Option.some.inj look)).1]
    · rename_i slot search
      obtain ⟨timer, installed, -⟩ := Option.map_eq_some_iff.mp look
      exact absurd ⟨skips, deskTimer, asked.1, asked.2, slot, timer, search, installed⟩ unserved
  · cases look

/-- The sources in front of the timers offer nothing exactly when they are all skipped. -/
theorem soonFound_none_iff {time : Dword} :
    soonFound env a time w = none ↔ SkipsToDeskTimer env a w ∧ SkipsDeskTimer env w := by
  unfold soonFound
  rw [Option.orElse_eq_none, Option.orElse_eq_none, Option.orElse_eq_none, Option.orElse_eq_none,
    Option.orElse_eq_none, lookQuit_none, lookSync_none, lookNotify_none, lookPosted_none,
    lookPaint_none, lookDeskTimer_none]
  constructor
  · rintro ⟨running, sync, ⟨live, notify⟩, posted, paint, deskTimer⟩
    exact ⟨⟨running, sync, live, notify, posted, paint⟩, deskTimer⟩
  · rintro ⟨⟨running, sync, live, notify, posted, paint⟩, deskTimer⟩
    exact ⟨running, sync, ⟨live, notify⟩, posted, paint, deskTimer⟩

/-- A pass over such a queue serves no timer. -/
theorem peekPass_untimed (unserved : ¬ ServesTimer env a w) (pMsg : Msg) :
    ¬ (peekPass env a ⟨w, pMsg⟩).1.ServesTimer := by
  rw [(peekPass_found env a ⟨w, pMsg⟩).1, peekFound]
  cases soon : soonFound env a pMsg.time w with
  | some offer => exact soonFound_untimed soon
  | none =>
    obtain ⟨skips, deskTimer⟩ := soonFound_none_iff.mp soon
    cases look : lookTimer env a (offeredTime pMsg.time w) w with
    | none => exact id
    | some offer =>
      have fault := lookTimer_none_of_not_serves _ skips deskTimer unserved offer.1 offer.2 look
      show ¬ offer.1.ServesTimer
      rw [fault]
      exact id

/-- What was found without `PM_REMOVE` is found again with it. -/
theorem found_again {w' : World} {source : Source} (unserved : ¬ ServesTimer env a w)
    (left : LeftInQueue env w w') {time : Dword}
    (found : (peekFound env a time w).1 = .got source) :
    peekFound env a.removing time w' = peekFound env a time w := by
  cases soon : soonFound env a time w with
  | some offer =>
    have again : soonFound env a.removing time w' = some offer := (left.soonFound time).trans soon
    unfold peekFound
    rw [soon, again]
    rfl
  | none =>
    obtain ⟨skips, deskTimer⟩ := soonFound_none_iff.mp soon
    unfold peekFound at found
    rw [soon] at found
    cases look : lookTimer env a (offeredTime time w) w with
    | none =>
      rw [look] at found
      cases found
    | some offer =>
      have fault := lookTimer_none_of_not_serves _ skips deskTimer unserved offer.1 offer.2 look
      rw [look] at found
      exact absurd (fault.symm.trans found) (by simp)

/-- **Without a timer the contract holds.** -/
theorem leaves_of_unserved (keeps : a.remove = false) (accepted : ¬ refusesWindow env win a)
    (unserved : ¬ ServesTimer env a w) : PeekLeaves env win a w := by
  intro callback passes pMsg returned after call
  rw [peekMessageEx_accepted accepted] at call
  cases passes with
  | zero => cases call
  | succ passes =>
    have untimed := peekPass_untimed unserved (clearedMsg env)
    obtain ⟨outcome, message⟩ := peekPass_found env a ⟨w, clearedMsg env⟩
    rcases pass : peekPass env a ⟨w, clearedMsg env⟩ with ⟨ended, after'⟩
    rw [pass] at untimed outcome message
    rw [peekLoop_succ pass] at call
    have left := peekPass_keeps keeps pass untimed
    cases ended with
    | callTimer slot timer => exact absurd trivial untimed
    | fault => cases call
    | quit | nothing =>
      obtain ⟨rfl, rfl⟩ := Prod.mk.inj (Option.some.inj call)
      exact ⟨left, fun impossible => by cases impossible⟩
    | got source =>
      obtain ⟨rfl, rfl⟩ := Prod.mk.inj (Option.some.inj call)
      refine ⟨left, fun _ callback' passes' pMsg' => ?_⟩
      obtain ⟨outcome', message'⟩ := peekPass_found env a.removing ⟨after'.world, clearedMsg env⟩
      have again := found_again unserved left outcome.symm
      change _ = (peekFound env a.removing (clearedMsg env).time after'.world).1 at outcome'
      change ∀ source, _ → _ =
        (peekFound env a.removing (clearedMsg env).time after'.world).2.visible at message'
      rw [again] at outcome' message'
      have got := outcome'.trans outcome.symm
      have accepted' : ¬ refusesWindow env win a.removing := accepted
      have pass' : peekPass env a.removing ⟨after'.world, clearedMsg env⟩ =
          (.got source, (peekPass env a.removing ⟨after'.world, clearedMsg env⟩).2) := Prod.ext got rfl
      refine ⟨_, ?_, (message' source got).trans (message source rfl).symm⟩
      rw [peekMessageEx_accepted accepted']
      exact peekLoop_succ pass'

/-! ### With a timer -/

/-- The pass that serves a timer. -/
theorem peekPass_serves (serves : ServesTimer env a w) (pMsg : Msg) :
    ∃ slot timer dwState idle after, timerSearch env w.queue = some (some slot) ∧
      (peekPass env a ⟨w, pMsg⟩ = (.callTimer slot timer, after) ∨
        peekPass env a ⟨w, pMsg⟩ = (.got .timer, after)) ∧
      after.world.queue = { w.queue.served env slot with dwState := dwState, idleCounter := idle } ∧
      FlagsOnly env w { after.world with queue := { w.queue with dwState := dwState } } := by
  obtain ⟨slot, timer, search, installed⟩ := serves.installed
  have ended := peekPass_ends env a ⟨w, pMsg⟩
  have none_soon : soonFound env a pMsg.time w = none :=
    soonFound_none_iff.mpr ⟨serves.skips, serves.deskTimer⟩
  generalize same : peekPass env a ⟨w, pMsg⟩ = pass at ended
  cases ended with
  | soon outcome after ends =>
    obtain ⟨msg, found, -⟩ := ends.found
    exact absurd (none_soon.symm.trans found) (by simp)
  | late s' stage falls stages =>
    obtain ⟨state, eq⟩ := falls.only.queue
    have queue : s'.world.queue = { w.queue with dwState := state } := eq
    have sameSearch : timerSearch env s'.world.queue = timerSearch env w.queue := by rw [queue]; rfl
    have sameSlots : s'.world.queue.timerSlots = w.queue.timerSlots := by rw [queue]
    have sameMask : s'.world.queue.expiredTimerMask = w.queue.expiredTimerMask := by rw [queue]
    have only : FlagsOnly env w { s'.world with queue := { w.queue with dwState := state } } := by
      rw [← queue]
      exact falls.only
    have agrees : ∀ slot' : ℕ, timerSearch env s'.world.queue = some (some slot') → slot' = slot := by
      intro slot' search'
      rw [sameSearch, search] at search'
      exact (Option.some.inj (Option.some.inj search')).symm
    cases stages with
    | skipped unasked => exact absurd ⟨by rw [sameMask]; exact serves.expired, serves.wanted⟩ unasked
    | fault _ _ missing => exact absurd (sameSearch.trans search) (missing slot)
    | vacant slot' _ _ search' vacant =>
      obtain rfl := agrees slot' search'
      rw [sameSlots, installed] at vacant
      cases vacant
    | call slot' timer' _ _ search' installed' proc =>
      obtain rfl := agrees slot' search'
      refine ⟨slot', timer', state, s'.world.queue.idleCounter, _, search, .inl rfl, ?_, only⟩
      show s'.world.queue.served env slot' = _
      rw [queue]
      rfl
    | got slot' timer' _ _ search' installed' proc =>
      obtain rfl := agrees slot' search'
      show ∃ slot timer dwState idle after, _ ∧ (_ ∨ (Outcome.got .timer, gotRet env
        { s'.setQueue (s'.world.queue.served env slot') with pMsg := _ }) = _) ∧ _
      unfold gotRet
      split
      · refine ⟨slot', timer', state, 0, _, search, .inr rfl, ?_, only⟩
        show { s'.world.queue.served env slot' with idleCounter := 0 } = _
        rw [queue]
        rfl
      · refine ⟨slot', timer', state, s'.world.queue.idleCounter, _, search, .inr rfl, ?_, only⟩
        show s'.world.queue.served env slot' = _
        rw [queue]
        rfl

/-- The callback lets no timer expire. -/
def TimerCallback.Quiet (callback : TimerCallback) : Prop :=
  ∀ slot timer w k, (callback slot timer w).queue.expiredTimerMask.getLsbD k = true →
    w.queue.expiredTimerMask.getLsbD k = true

/-- A pass without `PM_REMOVE` lets no timer expire either. -/
theorem peekPass_expired (keeps : a.remove = false) {pMsg : Msg} {outcome : Outcome} {after : PeekState}
    (pass : peekPass env a ⟨w, pMsg⟩ = (outcome, after)) {k : ℕ}
    (set : after.world.queue.expiredTimerMask.getLsbD k = true) :
    w.queue.expiredTimerMask.getLsbD k = true := by
  by_cases serves : ServesTimer env a w
  · obtain ⟨slot, timer, state, idle, served, -, ended, queue, -⟩ := peekPass_serves serves pMsg
    have same : served = after := by
      rcases ended with ended | ended <;> exact congrArg Prod.snd (ended.symm.trans pass)
    rw [← same, queue] at set
    exact (Bool.and_eq_true_iff.mp ((BitVec.getLsbD_and ..).symm.trans set)).1
  · have untimed := peekPass_untimed serves pMsg
    rw [pass] at untimed
    obtain ⟨_, _, _, eq⟩ := (peekPass_keeps keeps pass untimed).queue
    rw [eq] at set
    exact set

/-- Nor do the passes of a call, with such callbacks. -/
theorem peekLoop_expired (keeps : a.remove = false) {callback : TimerCallback} (quiet : callback.Quiet)
    {passes : ℕ} {s last : PeekState} {returned : Bool}
    (loop : peekLoop env a callback passes s = some (returned, last)) {k : ℕ}
    (set : last.world.queue.expiredTimerMask.getLsbD k = true) :
    s.world.queue.expiredTimerMask.getLsbD k = true := by
  induction passes generalizing s with
  | zero => cases loop
  | succ passes ih =>
    rcases pass : peekPass env a s with ⟨ended, after⟩
    rw [peekLoop_succ pass] at loop
    cases ended with
    | callTimer slot timer => exact peekPass_expired keeps pass (quiet _ _ _ _ (ih loop))
    | fault => cases loop
    | quit | got source | nothing =>
      obtain ⟨-, rfl⟩ := Prod.mk.inj (Option.some.inj loop)
      exact peekPass_expired keeps pass set

/-- **A call that serves a timer loses it**: the pass clears the bit of the slot, and nothing sets it
again before the call returns. -/
theorem loses_of_serves (accepted : ¬ refusesWindow env win a) (keeps : a.remove = false)
    (serves : ServesTimer env a w) {callback : TimerCallback} (quiet : callback.Quiet) {passes : ℕ}
    {pMsg : Msg} {returned : Bool} {last : PeekState}
    (call : peekMessageEx env win a callback passes pMsg w = some (returned, last)) :
    ¬ LeftInQueue env w last.world := by
  intro left
  obtain ⟨slot, timer, state, idle, after, search, pass, queue, -⟩ :=
    peekPass_serves serves (clearedMsg env)
  have cleared : after.world.queue.expiredTimerMask.getLsbD slot = false := by
    rw [queue]
    exact served_bit env w.queue slot
  have still : last.world.queue.expiredTimerMask.getLsbD slot = true := by
    obtain ⟨_, _, _, eq⟩ := left.queue
    rw [eq]
    show w.queue.expiredTimerMask.getLsbD slot = true
    exact timerSearch_hit search
  refine absurd (cleared.symm.trans ?_) Bool.false_ne_true
  rw [peekMessageEx_accepted accepted] at call
  cases passes with
  | zero => cases call
  | succ passes =>
    rcases pass with pass | pass
    · rw [peekLoop_succ pass] at call
      exact quiet _ _ _ _ (peekLoop_expired keeps quiet call still)
    · rw [peekLoop_succ pass] at call
      obtain ⟨-, rfl⟩ := Prod.mk.inj (Option.some.inj call)
      exact still

/-- A callback that does nothing. -/
def doesNothing : TimerCallback := fun _ _ w => w

/-- A callback that cancels the timers that are left. -/
def cancelAll : TimerCallback := fun _ _ w => { w with queue := { w.queue with expiredTimerMask := 0 } }

/-- After the timers were cancelled the next pass finds nothing. -/
theorem peekPass_cancelled (serves : ServesTimer env a w) {slot : ℕ} (timer : Timer)
    {after : PeekState} {state : Dword} {idle : ℕ}
    (only : FlagsOnly env w { after.world with queue := { w.queue with dwState := state } })
    (queue : after.world.queue =
      { w.queue.served env slot with dwState := state, idleCounter := idle }) :
    (peekPass env a ⟨cancelAll slot timer after.world, after.pMsg⟩).1 = .nothing := by
  have same : soonFound env a after.pMsg.time (cancelAll slot timer after.world) =
      soonFound env a after.pMsg.time { after.world with
        queue := { w.queue with dwState := state } } := by
    unfold cancelAll
    rw [queue]
    rfl
  have none_soon := (same.trans only.soonFound).trans
    (soonFound_none_iff.mpr ⟨serves.skips, serves.deskTimer⟩)
  obtain ⟨outcome, -⟩ := peekPass_found env a ⟨cancelAll slot timer after.world, after.pMsg⟩
  rw [outcome]
  unfold peekFound lookTimer
  rw [none_soon, if_neg fun asked => asked.1 rfl]
  rfl

/-- Some such call returns: the one whose callbacks do nothing, unless a later pass of it would read
a null pointer. -/
theorem exists_returns (accepted : ¬ refusesWindow env win a) (serves : ServesTimer env a w) :
    ∃ callback : TimerCallback, callback.Quiet ∧ ∃ passes returned last,
      peekMessageEx env win a callback passes Msg.zero w = some (returned, last) := by
  by_cases returns : ∃ passes returned last,
      peekMessageEx env win a doesNothing passes Msg.zero w = some (returned, last)
  · exact ⟨doesNothing, fun _ _ _ _ set => set, returns⟩
  · refine ⟨cancelAll, fun _ _ _ k set => absurd set (by simp [cancelAll]), ?_⟩
    obtain ⟨slot, timer, state, idle, after, -, pass, queue, only⟩ :=
      peekPass_serves serves (clearedMsg env)
    rcases pass with pass | pass
    · have ended := peekPass_cancelled serves timer only queue
      rcases pass' : peekPass env a ⟨cancelAll slot timer after.world, after.pMsg⟩ with ⟨outcome, last⟩
      rw [pass'] at ended
      obtain rfl : outcome = .nothing := ended
      refine ⟨0 + 1 + 1, false, last, ?_⟩
      rw [peekMessageEx_accepted accepted, peekLoop_succ pass]
      exact peekLoop_succ pass'
    · refine ⟨0 + 1, true, after, ?_⟩
      rw [peekMessageEx_accepted accepted]
      exact peekLoop_succ pass

/-- **With a timer the contract is broken.** -/
theorem not_leaves_of_serves (accepted : ¬ refusesWindow env win a) (keeps : a.remove = false)
    (serves : ServesTimer env a w) : ¬ PeekLeaves env win a w := by
  intro leaves
  obtain ⟨callback, quiet, passes, returned, last, call⟩ := exists_returns accepted serves
  exact loses_of_serves accepted keeps serves quiet call (leaves _ _ _ _ _ call).1

/-- **PM_NOREMOVE leaves the message in the queue** exactly when the call serves no timer. -/
theorem peek_leaves_iff (keeps : a.remove = false) :
    PeekLeaves env win a w ↔ refusesWindow env win a ∨ ¬ ServesTimer env a w := by
  by_cases refused : refusesWindow env win a
  · refine iff_of_true ?_ (.inl refused)
    intro callback passes pMsg returned after call
    obtain ⟨rfl, rfl⟩ := Prod.mk.inj (Option.some.inj ((if_pos refused).symm.trans call))
    exact ⟨(FlagsOnly.refl w).left _ _, fun impossible => by cases impossible⟩
  · by_cases serves : ServesTimer env a w
    · exact iff_of_false (not_leaves_of_serves refused keeps serves)
        (not_or.mpr ⟨refused, not_not.mpr serves⟩)
    · exact iff_of_true (leaves_of_unserved keeps refused serves) (.inr serves)

/-! ### One expired timer -/

/-- `PM_NOREMOVE`. -/
def pmNoremove : BitVec 32 := 0x0000

/-- No filter. -/
def anyArgs : PeekArgs := ⟨1, 0, 0, pmNoremove⟩

/-- A timer without a callback in slot 2 has expired. -/
def oneExpired : List Event :=
  [.timers (fun slot => if slot = 2 then some ⟨1, 7, 50, false⟩ else none) 4]

theorem noremove_loses_timer : ∃ s after last, queueSystem.Reachable s ∧
    peekMessageEx ownEnv ownWindows anyArgs (fun _ _ w => w) 1 Msg.zero s.world =
      some (true, after) ∧ after.pMsg.message = msgTimer ∧
    peekMessageEx ownEnv ownWindows anyArgs.removing (fun _ _ w => w) 1 Msg.zero after.world =
      some (false, last) ∧
    ¬ PeekLeaves ownEnv ownWindows anyArgs s.world := by
  refine ⟨_, _, _, reachable_of_run blank_reachable (rfl : State.blank.run oneExpired = some _),
    rfl, rfl, rfl, fun leaves => ?_⟩
  obtain ⟨after', again, -⟩ :=
    (leaves (fun _ _ w => w) 1 Msg.zero true _ rfl).2 rfl (fun _ _ w => w) 0 Msg.zero
  have value : some true = some false := (congrArg (Option.map Prod.fst) again).symm.trans rfl
  cases value

theorem peek_leaves_iff_expired : ∃ s, State.blank.run oneExpired = some s ∧
    (PeekLeaves ownEnv ownWindows anyArgs s.world ↔
      refusesWindow ownEnv ownWindows anyArgs ∨ ¬ ServesTimer ownEnv anyArgs s.world) :=
  ⟨_, rfl, peek_leaves_iff rfl⟩

end Aple.Message
