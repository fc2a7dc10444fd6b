/-
**Timer callbacks during a peek.**

A pass that finds an expired timer with a procedure unlocks the queue, calls the procedure, removes
the timer in the slot if the procedure returned `FALSE`, and starts again at `checkagain`.

* `TimerProc` — a procedure, with state of its own; `runTimer` — what happens from the unlock to the
  jump back.
* `peekTrace` — the passes of one call with the procedures they called; `peekLoop_eq` — it is the
  call of the model.
* `PeekReady` — what a pass needs so that it reads no null pointer, and `peekPass_call` — what a pass
  that calls a procedure does.
* **`peek_terminates`** — procedures that let no timer expire are called once for each expired slot
  at most, and the call returns.
* `doesNothing_loses` — a call without `PM_REMOVE` loses the timer that it serves, also when the
  procedures do nothing.
* **`removes_own_iff`** — returning `FALSE` removes only the procedure's own timer exactly when its
  slot was not given to another timer in the meantime.
-/

import Aple.Message.NotifyDeque
import Aple.Message.PeekKeeps
import Aple.Message.TimerService

namespace Aple.Message

open Aple.Lib

/-! ### Procedures -/

/-- A timer procedure: what it returns, its own state and the world it leaves. -/
abbrev TimerProc (σ : Type) := ℕ → Timer → σ → World → Bool × σ × World

/-- `__mg_remove_timer`, as its caller relies on it: the timer of the slot and its bit go. -/
def mgRemoveTimer (q : MsgQueue) (slot : ℕ) : MsgQueue :=
  { q with
    timerSlots := Function.update q.timerSlots slot none
    expiredTimerMask := q.expiredTimerMask &&& ~~~BitVec.twoPow 64 slot }

/-- One call of a procedure: what the queue was unlocked with, and what the procedure left. -/
structure Called (σ : Type) where
  slot : ℕ
  timer : Timer
  unlocked : σ × World
  retTimerProc : Bool
  returned : σ × World

/-- The world when the queue is unlocked again. -/
def Called.resumed {σ : Type} (call : Called σ) : World :=
  if call.retTimerProc then call.returned.2
  else { call.returned.2 with queue := mgRemoveTimer call.returned.2.queue call.slot }

section Trace

variable {σ : Type} (env : PeekEnv) (a : PeekArgs) (proc : TimerProc σ)

/-- From the unlock to the jump back. -/
def runTimer (slot : ℕ) (timer : Timer) (c : σ) (w : World) : Called σ :=
  ⟨slot, timer, (c, w), (proc slot timer c w).1, (proc slot timer c w).2⟩

/-- The passes of a call: the procedures called so far, and what the call returns once it does. -/
def peekTrace : ℕ → σ → PeekState → List (Called σ) × Option (Bool × σ × PeekState)
  | 0, _, _ => ([], none)
  | passes + 1, c, s =>
    match peekPass env a s with
    | (.quit, s) => ([], some (false, c, s))
    | (.got _, s) => ([], some (true, c, s))
    | (.callTimer slot timer, s) =>
      let call := runTimer proc slot timer c s.world
      let (calls, result) := peekTrace passes call.returned.1 { s with world := call.resumed }
      (call :: calls, result)
    | (.nothing, s) => ([], some (false, c, s))
    | (.fault, _) => ([], none)

/-- The whole non-waiting call, with its test of the window argument. -/
def peekMessageExTrace (win : Windows) (passes : ℕ) (c : σ) (pMsg : Msg) (w : World) :
    List (Called σ) × Option (Bool × σ × PeekState) :=
  if a.hWnd ≠ env.hwndDesktop ∧ !isMainVirtWindow win a.hWnd then ([], some (false, c, ⟨w, pMsg⟩))
  else peekTrace env a proc passes c ⟨w, { Msg.zero with time := env.tickCounter }⟩

end Trace

/-- A procedure without a state of its own, as a callback. -/
def callbackOf (proc : TimerProc Unit) : TimerCallback := fun slot timer w =>
  (runTimer proc slot timer () w).resumed

/-- **The trace is the call.** -/
theorem peekLoop_eq (env : PeekEnv) (a : PeekArgs) (proc : TimerProc Unit) (passes : ℕ)
    (s : PeekState) : peekLoop env a (callbackOf proc) passes s =
      (peekTrace env a proc passes () s).2.map fun r => (r.1, r.2.2) := by
  induction passes generalizing s with
  | zero => rfl
  | succ passes ih =>
    rcases pass : peekPass env a s with ⟨outcome, after⟩
    simp only [peekLoop, peekTrace, pass]
    cases outcome with
    | callTimer slot timer => exact ih _
    | quit | got source | nothing | fault => rfl

theorem peekMessageEx_eq (env : PeekEnv) (win : Windows) (a : PeekArgs) (proc : TimerProc Unit)
    (passes : ℕ) (pMsg : Msg) (w : World) :
    peekMessageEx env win a (callbackOf proc) passes pMsg w =
      (peekMessageExTrace env a proc win passes () pMsg w).2.map fun r => (r.1, r.2.2) := by
  unfold peekMessageEx peekMessageExTrace
  split
  · rfl
  · exact peekLoop_eq ..

/-! ### One pass -/

/-- What a pass needs: a well-formed notification list, timers in range, and a root window when there
is something to repaint. -/
structure PeekReady (N : ℕ) (w : World) : Prop where
  notes : ∃ msgs, HoldsNotes w msgs
  timers : TimersOk N w.queue
  rooted : w.queue.has .paint = true → w.queue.pRootMainWin ≠ none

section Pass

variable {env : PeekEnv} {a : PeekArgs} {s : PeekState} {time : Dword} {w : World}

theorem HoldsNotes.live {msgs : List Msg} (holds : HoldsNotes w msgs) : headNotify w ≠ some none := by
  obtain ⟨nodes, list, rfl⟩ := holds
  unfold headNotify
  split
  · cases nodes with
    | nil => simp [show w.queue.pFirstNotifyMsg = none from list.first_eq]
    | cons head rest =>
      obtain ⟨node, read⟩ := list.owned.read List.mem_cons_self
      simp [show w.queue.pFirstNotifyMsg = some head from list.first_eq, read]
  · simp

/-- Nothing in front of the timers reads a null pointer. -/
theorem soonFound_safe {N : ℕ} (ready : PeekReady N w) (msg : Msg) :
    soonFound env a time w ≠ some (.fault, msg) := by
  intro found
  simp only [soonFound, Option.orElse_eq_some] at found
  rcases found with look | ⟨-, look | ⟨-, look | ⟨-, look | ⟨-, look | ⟨-, look⟩⟩⟩⟩⟩
  · unfold lookQuit at look
    split at look <;> simp at look
  · obtain ⟨⟨first, head⟩, -, look⟩ := Option.bind_eq_some_iff.mp look
    simp at look
  · obtain ⟨node, head, look⟩ := Option.bind_eq_some_iff.mp look
    obtain ⟨msgs, holds⟩ := ready.notes
    cases node with
    | none => exact holds.live head
    | some node => simp at look
  · obtain ⟨head, -, look⟩ := Option.bind_eq_some_iff.mp look
    split at look <;> simp at look
  · unfold lookPaint at look
    split at look
    · rename_i asked
      split at look
      · rename_i unrooted
        exact ready.rooted (Bool.and_eq_true_iff.mp asked).1 unrooted
      · simp only at look
        split at look <;> simp at look
    · cases look
  · unfold lookDeskTimer at look
    split at look <;> simp at look

/-- **A pass over a queue that is ready** does not fault. -/
theorem peekPass_safe (ready : PeekReady env.defNrTimers s.world) : (peekPass env a s).1 ≠ .fault := by
  have ended := peekPass_ends env a s
  generalize peekPass env a s = pass at ended ⊢
  cases ended with
  | soon outcome after ends =>
    obtain ⟨msg, found, -⟩ := ends.found
    rintro rfl
    exact soonFound_safe ready msg found
  | late s' stage falls stages =>
    cases stages with
    | fault expired wanted missing =>
      have timers := falls.only.sameTimers
      obtain ⟨slot, -, -, search⟩ := timerSearch_total (q := s'.world.queue)
        ⟨timers.firstTimerSlot ▸ ready.timers.first, timers.expiredTimerMask ▸ ready.timers.mask⟩ expired
      exact absurd (timerSearch_of_total search) (missing slot)
    | skipped | vacant | call | got => simp [Stage.close]

/-- What a pass that calls a procedure leaves of the queue. -/
structure Calls (env : PeekEnv) (slot : ℕ) (timer : Timer) (q q' : MsgQueue) : Prop where
  expired : q.expiredTimerMask.getLsbD slot = true
  installed : q.timerSlots slot = some timer
  proc : timer.proc = true
  timerSlots : q'.timerSlots = q.timerSlots
  mask : q'.expiredTimerMask = q.expiredTimerMask &&& ~~~BitVec.twoPow 64 slot
  first : q'.firstTimerSlot = (q.firstTimerSlot + 1) % env.defNrTimers

/-- **A pass that calls a procedure**, and what it leaves for the procedure. -/
theorem peekPass_call {slot : ℕ} {timer : Timer} {after : PeekState}
    (pass : peekPass env a s = (.callTimer slot timer, after)) :
    Calls env slot timer s.world.queue after.world.queue ∧
      (PeekReady env.defNrTimers s.world → PeekReady env.defNrTimers after.world) := by
  have ended := peekPass_ends env a s
  rw [pass] at ended
  generalize same : (Outcome.callTimer slot timer, after) = result at ended
  cases ended with
  | soon outcome after' ends =>
    obtain ⟨rfl, -⟩ := Prod.mk.inj same
    obtain ⟨msg, found, -⟩ := ends.found
    exact absurd trivial (soonFound_untimed found)
  | late s' stage falls stages =>
    have timers := falls.only.sameTimers
    cases stages with
    | skipped | fault | vacant | got => simp [Stage.close] at same
    | call slot' timer' expired wanted search installed proc =>
      obtain ⟨called, rfl⟩ := Prod.mk.inj same
      obtain ⟨rfl, rfl⟩ := Outcome.callTimer.inj called
      have hit := timerSearch_hit search
      rw [timers.expiredTimerMask] at hit
      rw [timers.timerSlots] at installed
      refine ⟨⟨hit, installed, proc, timers.timerSlots, ?_, ?_⟩, fun ready => ?_⟩
      · rw [← timers.expiredTimerMask]
        rfl
      · rw [← timers.firstTimerSlot]
        rfl
      obtain ⟨msgs, holds⟩ := ready.notes
      obtain ⟨state, eq⟩ := falls.only.queue
      refine ⟨⟨msgs, holds.congr falls.only.heap ?_ ?_⟩, ⟨?_, fun k set => ?_⟩, fun flagged => ?_⟩
      · show s'.world.queue.pFirstNotifyMsg = _
        rw [eq]
      · show s'.world.queue.pLastNotifyMsg = _
        rw [eq]
      · exact Nat.mod_lt _ (Nat.zero_lt_of_lt ready.timers.first)
      · have before : s'.world.queue.expiredTimerMask.getLsbD k = true :=
          (Bool.and_eq_true_iff.mp ((BitVec.getLsbD_and ..).symm.trans set)).1
        rw [timers.expiredTimerMask] at before
        exact ready.timers.mask k before
      · show s'.world.queue.pRootMainWin ≠ none
        have root : s'.world.queue.pRootMainWin = s.world.queue.pRootMainWin := by rw [eq]
        rw [root]
        refine ready.rooted ?_
        rcases falls.only.flags .paint with same | ⟨-, cleared⟩
        · exact same.symm.trans flagged
        · exact absurd (cleared.symm.trans flagged) (by simp)

end Pass

/-! ### Termination -/

/-- The number of expired timers. -/
def popcount (mask : Dword) : ℕ := ((Finset.range 64).filter fun k => mask.getLsbD k = true).card

theorem popcount_lt {mask mask' : Dword} {slot : ℕ} (hit : mask.getLsbD slot = true)
    (missing : mask'.getLsbD slot = false)
    (fewer : ∀ k, mask'.getLsbD k = true → mask.getLsbD k = true) : popcount mask' < popcount mask := by
  refine Finset.card_lt_card (Finset.ssubset_iff_of_subset ?_ |>.mpr ⟨slot, ?_, ?_⟩)
  · exact Finset.monotone_filter_right _ fun k _ => fewer k
  · exact Finset.mem_filter.mpr ⟨Finset.mem_range.mpr (BitVec.lt_of_getLsbD hit), hit⟩
  · simp [missing]

theorem cleared_bit (mask : Dword) (slot k : ℕ) :
    (mask &&& ~~~BitVec.twoPow 64 slot).getLsbD k = (mask.getLsbD k && decide (k ≠ slot)) := by
  by_cases inside : k < 64
  · simp [inside, eq_comm]
  · simp [BitVec.getLsbD_of_ge mask k (Nat.le_of_not_lt inside)]

/-- The procedure lets no timer expire, and leaves a queue that a pass can read. -/
def LetsNoneExpire {σ : Type} (N : ℕ) (proc : TimerProc σ) : Prop :=
  ∀ slot timer c w, PeekReady N w →
    PeekReady N (proc slot timer c w).2.2 ∧
    ∀ k, (proc slot timer c w).2.2.queue.expiredTimerMask.getLsbD k = true →
      w.queue.expiredTimerMask.getLsbD k = true

section Calls

variable {σ : Type} {env : PeekEnv} {a : PeekArgs} {proc : TimerProc σ}

/-- Returning `FALSE` lets no timer expire either. -/
theorem LetsNoneExpire.resumed (quiet : LetsNoneExpire env.defNrTimers proc) {slot : ℕ}
    {timer : Timer} {c : σ} {w : World} (ready : PeekReady env.defNrTimers w) :
    PeekReady env.defNrTimers (runTimer proc slot timer c w).resumed ∧
    ∀ k, (runTimer proc slot timer c w).resumed.queue.expiredTimerMask.getLsbD k = true →
      w.queue.expiredTimerMask.getLsbD k = true := by
  obtain ⟨stays, fewer⟩ := quiet slot timer c w ready
  unfold runTimer
  generalize proc slot timer c w = left at stays fewer ⊢
  obtain ⟨retTimerProc, c', w'⟩ := left
  cases retTimerProc with
  | true => exact ⟨stays, fewer⟩
  | false =>
    have kept : ∀ k, (mgRemoveTimer w'.queue slot).expiredTimerMask.getLsbD k = true →
        w'.queue.expiredTimerMask.getLsbD k = true := fun k set =>
      (Bool.and_eq_true_iff.mp ((BitVec.getLsbD_and ..).symm.trans set)).1
    obtain ⟨msgs, holds⟩ := stays.notes
    exact ⟨⟨⟨msgs, holds.congr rfl rfl rfl⟩,
      ⟨stays.timers.first, fun k set => stays.timers.mask k (kept k set)⟩, stays.rooted⟩,
      fun k set => fewer k (kept k set)⟩

/-- **The passes of a call**, by the number of expired timers. -/
theorem peekTrace_returns (quiet : LetsNoneExpire env.defNrTimers proc) {passes : ℕ} {c : σ} {s : PeekState}
    (ready : PeekReady env.defNrTimers s.world)
    (enough : popcount s.world.queue.expiredTimerMask < passes) :
    (∃ result, (peekTrace env a proc passes c s).2 = some result) ∧
      ((peekTrace env a proc passes c s).1.map Called.slot).Nodup ∧
      ∀ call ∈ (peekTrace env a proc passes c s).1,
        s.world.queue.expiredTimerMask.getLsbD call.slot = true := by
  induction passes generalizing c s with
  | zero => exact absurd enough (Nat.not_lt_zero _)
  | succ passes ih =>
    have safe := peekPass_safe (a := a) ready
    rcases pass : peekPass env a s with ⟨outcome, after⟩
    rw [pass] at safe
    simp only [peekTrace, pass]
    cases outcome with
    | fault => exact absurd rfl safe
    | quit | got source | nothing => exact ⟨⟨_, rfl⟩, List.nodup_nil, fun _ member => nomatch member⟩
    | callTimer slot timer =>
      obtain ⟨calls, stays⟩ := peekPass_call pass
      obtain ⟨readyAgain, fewer⟩ := quiet.resumed (stays ready)
      dsimp only
      generalize run : runTimer proc slot timer c after.world = call at readyAgain fewer ⊢
      have atSlot : call.slot = slot := by rw [← run]; rfl
      -- the bit of the slot was cleared before the procedure was called
      have still : ∀ k, call.resumed.queue.expiredTimerMask.getLsbD k = true →
          s.world.queue.expiredTimerMask.getLsbD k = true ∧ k ≠ slot := by
        intro k set
        have before := fewer k set
        rw [calls.mask, cleared_bit, Bool.and_eq_true, decide_eq_true_eq] at before
        exact before
      have missing : call.resumed.queue.expiredTimerMask.getLsbD slot = false := by
        rw [Bool.eq_false_iff]
        exact fun set => (still slot set).2 rfl
      have less := popcount_lt calls.expired missing fun k set => (still k set).1
      obtain ⟨returns, distinct, pending⟩ := @ih call.returned.1 { after with world := call.resumed }
        readyAgain (Nat.lt_of_lt_of_le less (Nat.le_of_lt_succ enough))
      refine ⟨returns, ?_, ?_⟩
      · rw [List.map_cons, List.nodup_cons, atSlot]
        refine ⟨fun again => ?_, distinct⟩
        obtain ⟨other, member, same⟩ := List.mem_map.mp again
        exact (still _ (pending other member)).2 same
      · intro other member
        rcases List.mem_cons.mp member with rfl | later
        · rw [atSlot]
          exact calls.expired
        · exact (still _ (pending other later)).1

/-- **A non-waiting call returns** within one pass more than there are expired timers, and calls the
procedure of each expired slot once at most, when the procedures let no timer expire. -/
theorem peek_terminates (quiet : LetsNoneExpire env.defNrTimers proc) {s : State}
    (reached : queueSystem.Reachable s) (timers : TimersOk env.defNrTimers s.world.queue)
    (rooted : s.world.queue.has .paint = true → s.world.queue.pRootMainWin ≠ none)
    (win : Windows) (c : σ) (pMsg : Msg) :
    ∃ calls result, peekMessageExTrace env a proc win
        (popcount s.world.queue.expiredTimerMask + 1) c pMsg s.world = (calls, some result) ∧
      (calls.map Called.slot).Nodup ∧
      ∀ call ∈ calls, s.world.queue.expiredTimerMask.getLsbD call.slot = true := by
  unfold peekMessageExTrace
  split
  · exact ⟨[], _, rfl, List.nodup_nil, fun _ member => nomatch member⟩
  · have ready : PeekReady env.defNrTimers s.world := ⟨reachable_notify reached, timers, rooted⟩
    obtain ⟨⟨result, returns⟩, distinct, pending⟩ := @peekTrace_returns σ env a proc quiet
      (popcount s.world.queue.expiredTimerMask + 1) c
      ⟨s.world, { Msg.zero with time := env.tickCounter }⟩ ready (Nat.lt_succ_self _)
    exact ⟨_, result, Prod.ext rfl returns, distinct, pending⟩

/-- A call without `PM_REMOVE` that serves a timer returns and has lost it, also when every procedure
does nothing. -/
theorem doesNothing_loses {win : Windows} {w : World} (accepted : ¬ refusesWindow env win a)
    (keeps : a.remove = false) (serves : ServesTimer env a w) (ready : PeekReady env.defNrTimers w)
    (pMsg : Msg) : ∃ returned last,
      peekMessageEx env win a doesNothing (popcount w.queue.expiredTimerMask + 1) pMsg w =
        some (returned, last) ∧ ¬ LeftInQueue env w last.world := by
  let proc : TimerProc Unit := fun _ _ c w => (true, c, w)
  have quiet : LetsNoneExpire env.defNrTimers proc := fun _ _ _ _ stays => ⟨stays, fun _ set => set⟩
  obtain ⟨⟨⟨returned, c, last⟩, result⟩, -, -⟩ := @peekTrace_returns Unit env a proc quiet
    (popcount w.queue.expiredTimerMask + 1) () ⟨w, clearedMsg env⟩ ready (Nat.lt_succ_self _)
  have call : peekMessageEx env win a doesNothing (popcount w.queue.expiredTimerMask + 1) pMsg w =
      some (returned, last) := by
    rw [peekMessageEx_accepted accepted, show doesNothing = callbackOf proc from rfl, peekLoop_eq, result]
    rfl
  exact ⟨returned, last, call, loses_of_serves accepted keeps serves (fun _ _ _ _ set => set) call⟩

end Calls

/-- A procedure that posts a message and has its timer removed. -/
def postingProc : TimerProc Unit := fun _ timer c w =>
  (false, c, { w with queue := (writePosted ⟨timer.hWnd, msgNotification, 0, 0, 5, none⟩ w.queue).2 })

theorem postingProc_quiet (N : ℕ) : LetsNoneExpire N postingProc := by
  intro slot timer c w ready
  obtain ⟨msgs, holds⟩ := ready.notes
  unfold postingProc writePosted
  split
  · exact ⟨ready, fun k set => set⟩
  · refine ⟨⟨⟨msgs, holds.congr rfl rfl rfl⟩, ⟨ready.timers.first, ready.timers.mask⟩, fun flagged => ?_⟩,
      fun k set => set⟩
    exact ready.rooted (by simpa [posted, MsgQueue.has, MsgQueue.setFlag] using flagged)

/-- Four procedures, of which three are due. -/
def threeDue : List Event := [.timers (fun slot => some ⟨1, slot, 50, true⟩) 0b1101]

/-- Timer messages alone are asked for. -/
def timerArgs : PeekArgs := ⟨1, msgTimer, msgTimer, pmRemove⟩

def timerEnv : PeekEnv := ⟨4, 0, 0, 0, 1, false, fun _ lParam => lParam, fun _ => 0⟩

theorem threeDue_inside (slot : ℕ) (set : (0b1101#64).getLsbD slot = true) : slot < 4 := by
  have inside : ∀ slot < 64, (0b1101#64).getLsbD slot = true → slot < 4 := by decide
  exact inside slot (BitVec.lt_of_getLsbD set) set

theorem peek_terminates_three : ∃ s, State.blank.run threeDue = some s ∧ ∃ calls result,
    peekMessageExTrace timerEnv timerArgs postingProc (fun _ => ⟨0, 0, 0⟩) 4 () Msg.zero s.world =
      (calls, some result) ∧ (calls.map Called.slot).Nodup ∧
    ∀ call ∈ calls, s.world.queue.expiredTimerMask.getLsbD call.slot = true :=
  ⟨_, rfl, @peek_terminates Unit timerEnv timerArgs postingProc (postingProc_quiet 4) _
    (reachable_of_run blank_reachable (rfl : State.blank.run threeDue = some _))
    ⟨by decide, threeDue_inside⟩ (by decide) (fun _ => ⟨0, 0, 0⟩) () Msg.zero⟩

/-- Three procedures are due. -/
def threeWaiting : PeekState :=
  ⟨((State.blank.run threeDue).map State.world).getD State.blank.world, Msg.zero⟩

example : (peekTrace timerEnv timerArgs postingProc 4 () threeWaiting).1.map Called.slot = [0, 2, 3] := by
  decide

/-! ### The timer that is removed -/

section Removal

variable {σ : Type} {env : PeekEnv} {a : PeekArgs} {proc : TimerProc σ}

/-- Every call in a trace is one of the procedure, for the timer that the unlocked queue had in the
slot. -/
theorem peekTrace_calls {passes : ℕ} {c : σ} {s : PeekState} {call : Called σ}
    (member : call ∈ (peekTrace env a proc passes c s).1) :
    call.unlocked.2.queue.timerSlots call.slot = some call.timer ∧
      call = runTimer proc call.slot call.timer call.unlocked.1 call.unlocked.2 := by
  induction passes generalizing c s with
  | zero => cases member
  | succ passes ih =>
    rcases pass : peekPass env a s with ⟨outcome, after⟩
    simp only [peekTrace, pass] at member
    cases outcome with
    | callTimer slot timer =>
      rcases List.mem_cons.mp member with rfl | later
      · obtain ⟨calls, -⟩ := peekPass_call pass
        refine ⟨?_, rfl⟩
        show after.world.queue.timerSlots slot = some timer
        rw [calls.timerSlots]
        exact calls.installed
      · exact ih later
    | quit | got source | nothing | fault => cases member

/-- The timer that was the `n`-th to be installed is in the slot, where the numbers tell for each slot
which timer it is. -/
def Installed (state : (ℕ → ℕ) × World) (slot n : ℕ) : Prop :=
  state.2.queue.timerSlots slot ≠ none ∧ state.1 slot = n

/-- The timer whose procedure was called. -/
def Called.fired (call : Called (ℕ → ℕ)) : ℕ := call.unlocked.1 call.slot

/-- After the procedure returned, nothing but its own timer is removed. -/
structure Called.RemovesOwn (call : Called (ℕ → ℕ)) : Prop where
  others : ∀ slot n, Installed call.returned slot n → n ≠ call.fired →
    Installed (call.returned.1, call.resumed) slot n
  gone : (∀ slot, ¬ Installed call.returned slot call.fired) →
    call.resumed.queue.timerSlots = call.returned.2.queue.timerSlots

/-- The slot was not given to another timer while the procedure ran. -/
def Called.KeepsSlot (call : Called (ℕ → ℕ)) : Prop :=
  call.returned.2.queue.timerSlots call.slot = none ∨ call.returned.1 call.slot = call.fired

theorem Called.removesOwn_iff {call : Called (ℕ → ℕ)} (stops : call.retTimerProc = false) :
    call.RemovesOwn ↔ call.KeepsSlot := by
  have slots : call.resumed.queue.timerSlots =
      Function.update call.returned.2.queue.timerSlots call.slot none := by
    rw [Called.resumed, stops]
    rfl
  constructor
  · intro own
    by_contra other
    obtain ⟨taken, differs⟩ := not_or.mp other
    have stays := (own.others call.slot _ ⟨taken, rfl⟩ differs).1
    rw [slots, Function.update_self] at stays
    exact stays rfl
  · intro keeps
    have elsewhere : ∀ slot, slot ≠ call.slot ∨ call.returned.2.queue.timerSlots call.slot = none →
        call.resumed.queue.timerSlots slot = call.returned.2.queue.timerSlots slot := by
      intro slot apart
      rw [slots]
      by_cases same : slot = call.slot
      · subst same
        rw [Function.update_self]
        exact (apart.resolve_left (not_not.mpr rfl)).symm
      · exact Function.update_of_ne same ..
    constructor
    case others =>
      rintro slot n ⟨installed, number⟩ differs
      refine ⟨?_, number⟩
      rw [show (call.returned.1, call.resumed).2 = call.resumed from rfl, elsewhere]
      · exact installed
      · rcases keeps with empty | mine
        · exact .inr empty
        · refine .inl ?_
          rintro rfl
          exact differs (number.symm.trans mine)
    case gone =>
      intro gone
      funext slot
      refine elsewhere slot (.inr ?_)
      rcases keeps with empty | mine
      · exact empty
      · by_contra taken
        exact gone call.slot ⟨taken, mine⟩

/-- **Returning `FALSE`** removes the procedure's own timer and no other exactly when the slot is empty
or still holds that timer, for every procedure that a call of `PeekMessageEx` runs. -/
theorem removes_own_iff (proc : TimerProc (ℕ → ℕ)) (passes : ℕ) (number : ℕ → ℕ) (s : PeekState)
    (call : Called (ℕ → ℕ)) (member : call ∈ (peekTrace env a proc passes number s).1)
    (stops : call.retTimerProc = false) :
    Installed call.unlocked call.slot call.fired ∧ (call.RemovesOwn ↔ call.KeepsSlot) := by
  refine ⟨⟨?_, rfl⟩, call.removesOwn_iff stops⟩
  rw [(peekTrace_calls member).1]
  exact Option.some_ne_none _

end Removal

/-- A procedure that kills its own timer, installs timer 9 in the slot and returns `FALSE`. -/
def replacingProc : TimerProc (ℕ → ℕ) := fun slot _ number w =>
  (false, Function.update number slot 9, { w with queue := { w.queue with
    timerSlots := Function.update w.queue.timerSlots slot (some ⟨2, 0, 0, true⟩) } })

/-- A procedure that kills its own timer and returns `FALSE`. -/
def killingProc : TimerProc (ℕ → ℕ) := fun slot _ number w =>
  (false, number, { w with queue := { w.queue with
    timerSlots := Function.update w.queue.timerSlots slot none } })

theorem removes_own_iff_killed :
    (peekTrace timerEnv timerArgs killingProc 4 id threeWaiting).1.map Called.slot = [0, 2, 3] ∧
    ∀ call ∈ (peekTrace timerEnv timerArgs killingProc 4 id threeWaiting).1, call.RemovesOwn := by
  refine ⟨by decide, fun call member => ?_⟩
  have run := (peekTrace_calls member).2
  refine (removes_own_iff killingProc 4 id threeWaiting call member (by rw [run]; rfl)).2.mpr (.inl ?_)
  rw [run]
  exact Function.update_self ..

/-- The first call of the replacing procedure. -/
def replacedCall : Called (ℕ → ℕ) :=
  runTimer replacingProc 0 ⟨1, 0, 50, true⟩ id (peekPass timerEnv timerArgs threeWaiting).2.world

/-- The new timer is removed in place of the one that is gone. -/
theorem removes_new_timer :
    (peekTrace timerEnv timerArgs replacingProc 1 id threeWaiting).1 = [replacedCall] ∧
      replacedCall.retTimerProc = false ∧ Installed replacedCall.returned 0 9 ∧ replacedCall.fired = 0 ∧
      ¬ Installed (replacedCall.returned.1, replacedCall.resumed) 0 9 ∧ ¬ replacedCall.RemovesOwn := by
  have installed : Installed replacedCall.returned 0 9 := ⟨by decide, rfl⟩
  have removed : ¬ Installed (replacedCall.returned.1, replacedCall.resumed) 0 9 :=
    fun stays => stays.1 rfl
  exact ⟨rfl, rfl, installed, rfl, removed, fun own => removed (own.others 0 9 installed (by decide))⟩

end Aple.Message
