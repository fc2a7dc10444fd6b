/-
**Timers are served round robin.**

* `TimersOk` — the first timer slot and every expired slot are below `DEF_NR_TIMERS`.
* `selectedSlot` — the slot that a pass selects when it executes the timer branch.
* `timerSearch_total` — the search ends within `DEF_NR_TIMERS` turns at an expired slot.
* `exec_position` — one event: only an execution of the branch moves the first timer slot, by one.
* **`timer_service`** — the search is safe, the first timer slot stays in range, and a slot that
  stays expired is selected by one of any `DEF_NR_TIMERS` executions.
-/

import Aple.Lib.RoundRobin
import Aple.Message.FilterSound
import Aple.Message.Frame

namespace Aple.Message

open Aple.Lib

/-! ### The search -/

/-- The first timer slot and the expired slots are in range. -/
structure TimersOk (N : ℕ) (q : MsgQueue) : Prop where
  first : q.firstTimerSlot < N
  mask : ∀ slot, q.expiredTimerMask.getLsbD slot = true → slot < N

variable {env : PeekEnv} {a : PeekArgs} {q : MsgQueue} {s : PeekState}

/-- The loop is the circular search over the bits. -/
theorem timerSlotTurn_eq (env : PeekEnv) (q : MsgQueue) : timerSlotTurn env q =
    RoundRobin.searchTurn q.expiredTimerMask.getLsbD env.defNrTimers q.firstTimerSlot :=
  rfl

/-- **The search is safe**: it ends within `DEF_NR_TIMERS` turns at an expired slot. -/
theorem timerSearch_total (ok : TimersOk env.defNrTimers q) (expired : q.expiredTimerMask ≠ 0) :
    ∃ slot < env.defNrTimers, q.expiredTimerMask.getLsbD slot = true ∧
      loop (timerSlotTurn env q) env.defNrTimers q.firstTimerSlot = some (some slot) := by
  have pending : ∃ k < env.defNrTimers, q.expiredTimerMask.getLsbD k = true := by
    by_contra none_set
    refine expired (BitVec.eq_of_getLsbD_eq fun k _ => ?_)
    show _ = (0#64).getLsbD k
    rw [BitVec.getLsbD_zero]
    by_contra set
    rw [Bool.not_eq_false] at set
    exact none_set ⟨k, ok.mask k set, set⟩
  rw [timerSlotTurn_eq]
  exact RoundRobin.search_finds ok.first pending

/-- The code's search has one turn to spare. -/
theorem timerSearch_of_total {slot : ℕ}
    (returns : loop (timerSlotTurn env q) env.defNrTimers q.firstTimerSlot = some (some slot)) :
    timerSearch env q = some (some slot) :=
  loop_mono returns (Nat.le_succ _)

/-! ### One pass -/

/-- The slot selected by a pass that executes the timer branch. -/
def selectedSlot (env : PeekEnv) (a : PeekArgs) (s : PeekState) : Option ℕ :=
  match peekSources env a s with
  | .error _ => none
  | .ok s' =>
    if s'.world.queue.expiredTimerMask ≠ 0 ∧ isMsgWanted a msgTimer then
      (timerSearch env s'.world.queue).join
    else none

theorem selectedSlot_eq {s' : PeekState} (fell : peekSources env a s = .ok s') :
    selectedSlot env a s = if s'.world.queue.expiredTimerMask ≠ 0 ∧ isMsgWanted a msgTimer then
      (timerSearch env s'.world.queue).join else none := by
  rw [selectedSlot, fell]

/-- The slot is the one the search finds in the queue that the pass began with. -/
theorem selectedSlot_search {slot : ℕ} (selected : selectedSlot env a s = some slot) :
    timerSearch env s.world.queue = some (some slot) := by
  have offers : Offers env a s _ _ (peekSources env a s) := peekSources_offers
  cases result : peekSources env a s with
  | error jump =>
    rw [selectedSlot, result] at selected
    cases selected
  | ok s' =>
    rw [result] at offers
    rw [selectedSlot_eq result] at selected
    obtain ⟨state, eq⟩ := offers.only.queue
    have sameSearch : timerSearch env s'.world.queue = timerSearch env s.world.queue := by
      rw [eq]; rfl
    split at selected
    · rw [← sameSearch]
      exact Option.join_eq_some_iff.mp selected
    · cases selected

@[simp] theorem land_timers (env : PeekEnv) (outcome : Outcome) (s : PeekState) :
    SameTimers s.world.queue (outcome.land env s).world.queue := by
  cases outcome with
  | got source =>
    show SameTimers _ (gotRet env s).world.queue
    unfold gotRet
    split <;> exact ⟨rfl, rfl, rfl⟩
  | quit | callTimer slot timer | nothing | fault => exact ⟨rfl, rfl, rfl⟩

/-- What a pass does to the first timer slot. -/
structure PassPosition (env : PeekEnv) (a : PeekArgs) (s after : PeekState) : Prop where
  idle : selectedSlot env a s = none →
    after.world.queue.firstTimerSlot = s.world.queue.firstTimerSlot
  turn : ∀ slot, selectedSlot env a s = some slot →
    after.world.queue.firstTimerSlot = (s.world.queue.firstTimerSlot + 1) % env.defNrTimers

theorem peekPass_position {outcome : Outcome} {after : PeekState}
    (pass : peekPass env a s = (outcome, after)) (good : outcome ≠ .fault) :
    PassPosition env a s after := by
  have offers : Offers env a s _ _ (peekSources env a s) := peekSources_offers
  rw [peekPass_eq, peekStages_eq] at pass
  cases result : peekSources env a s with
  | error jump =>
    rw [result] at offers pass
    obtain ⟨rfl, rfl⟩ := Prod.mk.inj pass
    obtain ⟨msg, found, -⟩ := offers.found
    have same := (offers.timers (soonFound_untimed found)).trans (land_timers env jump.1 jump.2)
    have none_selected : selectedSlot env a s = none := by rw [selectedSlot, result]
    exact ⟨fun _ => same.firstTimerSlot, fun slot some_selected =>
      absurd (none_selected.symm.trans some_selected) (by simp)⟩
  | ok s' =>
    rw [result] at offers pass
    have sameFirst := offers.only.sameTimers.firstTimerSlot
    have selected := selectedSlot_eq result
    have stages := peekTimer_stage env a s'
    generalize same : peekTimer env a s' = stage at stages
    change (peekTimer env a s').close env = (outcome, after) at pass
    rw [same] at pass
    cases stages with
    | skipped unasked =>
      obtain ⟨rfl, rfl⟩ := Prod.mk.inj pass
      rw [if_neg unasked] at selected
      exact ⟨fun _ => sameFirst, fun slot some_selected =>
        absurd (selected.symm.trans some_selected) (by simp)⟩
    | fault =>
      obtain ⟨rfl, -⟩ := Prod.mk.inj pass
      exact absurd rfl good
    | vacant slot expired wanted search | call slot timer expired wanted search
    | got slot timer expired wanted search =>
      obtain ⟨rfl, rfl⟩ := Prod.mk.inj pass
      rw [if_pos ⟨expired, wanted⟩, search] at selected
      refine ⟨fun none_selected => absurd (selected.symm.trans none_selected) (by simp),
        fun slot' some_selected => ?_⟩
      rw [← sameFirst]
      first
        | rfl
        | exact (land_timers env (.got .timer) _).firstTimerSlot

/-- A selected slot with a timer is served: its callback is due, or its message is returned. -/
theorem peekPass_selected {slot : ℕ} {timer : Timer} (selected : selectedSlot env a s = some slot)
    (installed : s.world.queue.timerSlots slot = some timer) :
    (peekPass env a s).1 = .callTimer slot timer ∧ timer.proc = true ∨
      (peekPass env a s).1 = .got .timer ∧ timer.proc = false ∧
        (peekPass env a s).2.pMsg.hwnd = timer.hWnd ∧
        (peekPass env a s).2.pMsg.wParam = timer.id := by
  have offers : Offers env a s _ _ (peekSources env a s) := peekSources_offers
  rw [peekPass_eq, peekStages_eq]
  cases result : peekSources env a s with
  | error jump =>
    rw [selectedSlot, result] at selected
    cases selected
  | ok s' =>
    rw [result] at offers
    rw [selectedSlot_eq result] at selected
    have sameSlots := offers.only.sameTimers.timerSlots
    have stages := peekTimer_stage env a s'
    show ((peekTimer env a s').close env).1 = _ ∧ _ ∨ ((peekTimer env a s').close env).1 = _ ∧ _ ∧
      ((peekTimer env a s').close env).2.pMsg.hwnd = _ ∧
      ((peekTimer env a s').close env).2.pMsg.wParam = _
    generalize peekTimer env a s' = stage at stages ⊢
    cases stages with
    | skipped unasked =>
      rw [if_neg unasked] at selected
      cases selected
    | fault expired wanted missing =>
      rw [if_pos ⟨expired, wanted⟩] at selected
      exact absurd (Option.join_eq_some_iff.mp selected) (missing slot)
    | vacant slot' expired wanted search vacant =>
      rw [if_pos ⟨expired, wanted⟩, search] at selected
      obtain rfl : slot' = slot := Option.some.inj selected
      rw [sameSlots, installed] at vacant
      cases vacant
    | call slot' timer' expired wanted search installed' proc =>
      rw [if_pos ⟨expired, wanted⟩, search] at selected
      obtain rfl : slot' = slot := Option.some.inj selected
      rw [sameSlots, installed] at installed'
      obtain rfl := Option.some.inj installed'
      exact .inl ⟨rfl, proc⟩
    | got slot' timer' expired wanted search installed' proc =>
      rw [if_pos ⟨expired, wanted⟩, search] at selected
      obtain rfl : slot' = slot := Option.some.inj selected
      rw [sameSlots, installed] at installed'
      obtain rfl := Option.some.inj installed'
      refine .inr ⟨rfl, proc, ?_, ?_⟩
      · exact congrArg Msg.hwnd (gotRet_pMsg env _)
      · exact congrArg Msg.wParam (gotRet_pMsg env _)

/-! ### Every run -/

/-- The slot that an event selects. -/
def Event.selects (s : State) : Event → Option ℕ
  | .peek env args pMsg => selectedSlot env args ⟨s.world, pMsg⟩
  | _ => none

/-- The build constant is the same in every call. -/
def Event.Uses (N : ℕ) : Event → Prop
  | .peek env _ _ => env.defNrTimers = N
  | _ => True

theorem PostFrame.sameFirst {q : MsgQueue} {r : Bool × MsgQueue} (frame : PostFrame q r) :
    r.2.firstTimerSlot = q.firstTimerSlot := by
  cases frame <;> rfl

/-- The events that are not a pass of `PeekMessageEx`. -/
def Event.Elsewhere : Event → Prop
  | .peek _ _ _ => False
  | _ => True

/-- **Every other event** leaves the first timer slot alone. -/
theorem exec_still {s after : State} {event : Event} (elsewhere : event.Elsewhere)
    (runs : exec s event = some after) :
    after.world.queue.firstTimerSlot = s.world.queue.firstTimerSlot := by
  cases event with
  | peek env args pMsg => exact absurd elsewhere id
  | queueMessage fuel tick msg =>
    obtain ⟨r, returns, rfl⟩ := Option.map_eq_some_iff.mp runs
    exact (kernelQueueMessage_frame returns).sameFirst
  | post fuel tick pad hWnd nMsg wParam lParam =>
    obtain ⟨r, returns, rfl⟩ := Option.map_eq_some_iff.mp runs
    exact (postMessage_frame returns).sameFirst
  | postQuit =>
    obtain rfl := Option.some.inj runs
    show (postQuitMessage s.world.queue).firstTimerSlot = _
    unfold postQuitMessage
    split <;> rfl
  | sendNotify addr tick pad hWnd nMsg wParam lParam =>
    obtain ⟨w, returns, rfl⟩ := Option.map_eq_some_iff.mp runs
    obtain ⟨_, _, _, -, rfl⟩ := appendNotify_frame returns
    rfl
  | notify addr pad hWnd id code dwAddData =>
    obtain ⟨w, returns, rfl⟩ := Option.map_eq_some_iff.mp runs
    obtain ⟨_, _, _, -, rfl⟩ := appendNotify_frame returns
    rfl
  | sendPriorNotify addr tick pad hWnd nMsg wParam lParam =>
    obtain ⟨w, returns, rfl⟩ := Option.map_eq_some_iff.mp runs
    obtain ⟨_, _, _, -, rfl⟩ := sendPriorNotify_frame returns
    rfl
  | sendSync addr win time pad hWnd msg wParam lParam =>
    obtain ⟨-, -, w, returns, rfl⟩ := execSendSync_inv runs
    obtain ⟨_, _, -, rfl⟩ := linkSync_frame returns
    rfl
  | drain => cases execDrain_effect runs <;> rfl
  | peekPost nMsgFilterMin nMsgFilterMax uRemoveMsg =>
    obtain rfl := Option.some.inj runs
    show (peekPostMessage nMsgFilterMin nMsgFilterMax uRemoveMsg s.world.queue).2.2.firstTimerSlot = _
    rcases peekPostMessage_frame nMsgFilterMin nMsgFilterMax uRemoveMsg s.world.queue with
      eq | ⟨eq, -⟩
    · rw [eq]
    · rw [eq]
      rfl
  | dispatch index procs result =>
    obtain ⟨_, _, _, rfl⟩ := execDispatch_inv runs
    rfl
  | throwAway fuel defNrTimers win hWnd =>
    obtain ⟨-, count, w, returns, rfl⟩ := execThrowAway_inv runs
    obtain ⟨_, notified, _, synced, _, posted, _, first, second, third, -, rfl⟩ :=
      mgThrowAwayMessages_inv returns
    obtain ⟨_, _, _, -, rfl⟩ := throwNotify_frame first
    obtain ⟨_, _, -, rfl⟩ := cancelSync_frame second
    obtain ⟨_, _, -, rfl⟩ := throwPosted_frame third
    rfl
  | empty fuel =>
    obtain ⟨w, returns, rfl⟩ := Option.map_eq_some_iff.mp runs
    obtain ⟨_, synced, heap, first, -, rfl⟩ := emptyMessageQueue_inv returns
    obtain ⟨_, _, -, rfl⟩ := cancelSync_frame first
    rfl
  | timers slots mask | deskTimer | windows root =>
    obtain rfl := Option.some.inj runs
    rfl

/-- **One event.** Only an execution of the timer branch moves the first timer slot. -/
theorem exec_position {s after : State} {event : Event} (runs : exec s event = some after) :
    (event.selects s = none →
      after.world.queue.firstTimerSlot = s.world.queue.firstTimerSlot) ∧
    ∀ N slot, event.Uses N → event.selects s = some slot →
      after.world.queue.firstTimerSlot = (s.world.queue.firstTimerSlot + 1) % N := by
  by_cases elsewhere : event.Elsewhere
  · refine ⟨fun _ => exec_still elsewhere runs, fun N slot _ selected => ?_⟩
    cases event with
    | peek env args pMsg => exact absurd elsewhere id
    | _ => cases selected
  · cases event with
    | peek env args pMsg =>
      obtain ⟨outcome, afterPass, pass, -, good, rfl⟩ := execPeek_inv runs
      rw [State.world_hold]
      have position := peekPass_position pass good
      refine ⟨position.idle, ?_⟩
      rintro N slot rfl selected
      exact position.turn slot selected
    | _ => exact absurd trivial elsewhere

/-- Slot `k` is expired with its timer installed, and the event uses `N` slots. -/
def Waits (N k : ℕ) (s : State) (event : Event) : Prop :=
  s.world.queue.expiredTimerMask.getLsbD k = true ∧ s.world.queue.timerSlots k ≠ none ∧
    event.Uses N

/-- The queue serves its timers in rotation. -/
theorem timer_rotation (N : ℕ) : RoundRobin.Rotation N exec
    (fun s => s.world.queue.firstTimerSlot) (fun s event => event.selects s) (Waits N) where
  idle runs none_selected := (exec_position runs).1 none_selected
  turn waits runs selected := (exec_position runs).2 N _ waits.2.2 selected
  first := by
    intro s event slot selected waits
    cases event with
    | peek env args pMsg =>
      have search := selectedSlot_search selected
      have atStart : timerSearch env s.world.queue = some (some s.world.queue.firstTimerSlot) :=
        RoundRobin.search_at_start waits.1
      exact (Option.some.inj (Option.some.inj (search.symm.trans atStart)))
    | _ => cases selected

/-! ### The result -/

/-- What the timer branch promises for `N` slots. -/
structure TimerService (N : ℕ) : Prop where
  /-- The search ends within `N` turns at an expired slot, so `-1` is never used. -/
  search : ∀ (env : PeekEnv) (q : MsgQueue), env.defNrTimers = N → TimersOk N q →
    q.expiredTimerMask ≠ 0 → ∃ slot < N, q.expiredTimerMask.getLsbD slot = true ∧
      loop (timerSlotTurn env q) N q.firstTimerSlot = some (some slot) ∧
      timerSearch env q = some (some slot)
  /-- The first timer slot stays in range. -/
  stays : ∀ (s after : State) (event : Event), event.Uses N → s.world.queue.firstTimerSlot < N →
    exec s event = some after → after.world.queue.firstTimerSlot < N
  /-- A slot that waits is selected by one of `N` executions. -/
  fair : ∀ (k : ℕ) (s : State) (events : List Event), k < N → s.world.queue.firstTimerSlot < N →
    RoundRobin.Throughout exec (Waits N k) s events →
    N ≤ (RoundRobin.services exec (fun s event => event.selects s) s events).length →
    ∃ j < N, (RoundRobin.services exec (fun s event => event.selects s) s events)[j]? = some k
  /-- Being selected is being served. -/
  served : ∀ (env : PeekEnv) (a : PeekArgs) (s : PeekState) (k : ℕ) (timer : Timer),
    selectedSlot env a s = some k → s.world.queue.timerSlots k = some timer →
      (peekPass env a s).1 = .callTimer k timer ∧ timer.proc = true ∨
      (peekPass env a s).1 = .got .timer ∧ timer.proc = false ∧
        (peekPass env a s).2.pMsg.hwnd = timer.hWnd ∧
        (peekPass env a s).2.pMsg.wParam = timer.id

/-- **Round robin.** -/
theorem timer_service (N : ℕ) : TimerService N where
  search := by
    rintro env q rfl ok expired
    obtain ⟨slot, inside, hit, returns⟩ := timerSearch_total ok expired
    exact ⟨slot, inside, hit, returns, timerSearch_of_total returns⟩
  stays := by
    intro s after event uses inside runs
    obtain ⟨idle, turn⟩ := exec_position runs
    cases selected : event.selects s with
    | none =>
      rw [idle selected]
      exact inside
    | some slot =>
      rw [turn N slot uses selected]
      exact Nat.mod_lt _ (Nat.zero_lt_of_lt inside)
  fair k s events slot inside waiting count := (timer_rotation N).fair slot waiting inside count
  served env a s k timer selected installed := peekPass_selected selected installed

/-! ### Four timers that expired together -/

/-- All four slots expire at once. -/
def fourTimers : List Event := [.timers (fun slot => some ⟨1, slot, 50, false⟩) 15]

/-- A call that takes any message. -/
def anyPeek : Event :=
  .peek ⟨4, 0, 0, 0, 9, false, fun _ lParam => lParam, fun _ => 0⟩ ⟨1, 0, 0, pmRemove⟩ Msg.zero

theorem timer_service_four : ∃ s, State.blank.run fourTimers = some s ∧
    ∃ j < 4, (RoundRobin.services exec (fun s event => event.selects s) s
      [anyPeek, anyPeek, anyPeek, anyPeek])[j]? = some 3 := by
  refine ⟨_, rfl, (timer_service 4).fair 3 _ _ (by decide) (by decide) ?_ (by decide)⟩
  refine ⟨⟨rfl, Option.some_ne_none _, rfl⟩, fun _ ran => ?_⟩
  obtain rfl := Option.some.inj ran
  refine ⟨⟨rfl, Option.some_ne_none _, rfl⟩, fun _ ran => ?_⟩
  obtain rfl := Option.some.inj ran
  refine ⟨⟨rfl, Option.some_ne_none _, rfl⟩, fun _ ran => ?_⟩
  obtain rfl := Option.some.inj ran
  exact ⟨⟨rfl, Option.some_ne_none _, rfl⟩, fun _ _ => trivial⟩

end Aple.Message
