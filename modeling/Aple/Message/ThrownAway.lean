/-
**No message for a window that was thrown away.**

* `clearTimerFlags_spec` — the last loop of `__mg_throw_away_messages` clears the expired bits of the
  timers of the window, and no others.
* `FewerTimers` — no event but the timer interrupt sets an expired bit; `fewerTimers_step`.
* `exec_msg` — the message of a sender that is listed stays as it was sent.
* `spares` — the events that send nothing to a window; `Silent` — nothing in the queue is for it.
* `Silent.step` — one event; `silent_of_throw` — throwing away.
* **`thrown_window_silent`** — after it no call returns a message for the window, nor a message from
  one of its timers, until something is sent to it.
-/

import Aple.Message.MoveOrder
import Aple.Message.Overtaking
import Aple.Message.PeekKeeps

namespace Aple.Message

open Aple.Lib System

variable {s after : State} {thrown : Hwnd → Bool}

/-! ### The timers -/

section Timers

/-- The same timers are installed, and no more of them have expired. -/
structure FewerTimers (q q' : MsgQueue) : Prop where
  slots : q'.timerSlots = q.timerSlots
  mask : ∀ slot, q'.expiredTimerMask.getLsbD slot = true → q.expiredTimerMask.getLsbD slot = true

namespace FewerTimers

variable {q q' q'' : MsgQueue}

theorem refl (q : MsgQueue) : FewerTimers q q := ⟨rfl, fun _ => id⟩

theorem trans (first : FewerTimers q q') (second : FewerTimers q' q'') : FewerTimers q q'' :=
  ⟨second.slots.trans first.slots, fun slot set => first.mask slot (second.mask slot set)⟩

/-- A bit is cleared. -/
theorem clear (q : MsgQueue) (slot : ℕ) : FewerTimers q
    { q with expiredTimerMask := q.expiredTimerMask &&& ~~~BitVec.twoPow 64 slot } := by
  refine ⟨rfl, fun slot' set => ?_⟩
  simp only [BitVec.getLsbD_and, Bool.and_eq_true] at set
  exact set.1

theorem tidied {w w' : World} (tidied : Tidied w w') : FewerTimers w.queue w'.queue := by
  obtain ⟨_, _, _, eq⟩ := tidied.queue
  rw [eq]
  exact ⟨rfl, fun _ => id⟩

theorem post {r : Bool × MsgQueue} (frame : PostFrame q r) : FewerTimers q r.2 := by
  cases frame with
  | refused => exact .refl q
  | written => exact ⟨rfl, fun _ => id⟩
  | painted => exact ⟨rfl, fun _ => id⟩

end FewerTimers

theorem clearTimerFlag_fewer {q q' : MsgQueue} {slot : ℕ}
    (returns : clearTimerFlag thrown q slot = some q') : FewerTimers q q' := by
  unfold clearTimerFlag at returns
  split at returns
  · split at returns
    · cases returns
    · split at returns
      · rw [← Option.some.inj returns]
        exact .clear q slot
      · rw [← Option.some.inj returns]
        exact .refl q
  · rw [← Option.some.inj returns]
    exact .refl q

/-- The bit of the slot is cleared if its timer belongs to the window. -/
theorem clearTimerFlag_slot {q q' : MsgQueue} {slot : ℕ} (small : slot < 64)
    (returns : clearTimerFlag thrown q slot = some q')
    (set : q'.expiredTimerMask.getLsbD slot = true) {timer : Timer}
    (installed : q'.timerSlots slot = some timer) : thrown timer.hWnd = false := by
  unfold clearTimerFlag at returns
  split at returns
  · split at returns
    · cases returns
    · rename_i timer' is
      split at returns
      · rw [← Option.some.inj returns] at set
        simp [small] at set
      · rename_i spared
        rw [← Option.some.inj returns, is] at installed
        rw [← Option.some.inj installed]
        exact Bool.eq_false_of_not_eq_true spared
  · rename_i clear
    rw [← Option.some.inj returns] at set
    exact absurd set clear

/-- **The last loop** leaves no expired timer of the window among the slots that it looks at. -/
theorem clearTimerFlags_spec {q q' : MsgQueue} {defNrTimers : ℕ}
    (returns : clearTimerFlags defNrTimers thrown q = some q') : FewerTimers q q' ∧
      ∀ slot < defNrTimers, q'.expiredTimerMask.getLsbD slot = true →
        ∀ timer, q'.timerSlots slot = some timer → thrown timer.hWnd = false := by
  have step : ∀ (slots : List ℕ) (q : MsgQueue), slots.foldlM (clearTimerFlag thrown) q = some q' →
      FewerTimers q q' ∧ ∀ slot ∈ slots, q'.expiredTimerMask.getLsbD slot = true →
        ∀ timer, q'.timerSlots slot = some timer → thrown timer.hWnd = false := by
    intro slots
    induction slots with
    | nil =>
      intro q same
      rw [← Option.some.inj same]
      exact ⟨.refl q, List.forall_mem_nil _⟩
    | cons slot rest ih =>
      intro q folded
      rw [List.foldlM_cons, Option.bind_eq_bind, Option.bind_eq_some_iff] at folded
      obtain ⟨middle, first, others⟩ := folded
      obtain ⟨fewer, spared⟩ := ih middle others
      refine ⟨(clearTimerFlag_fewer first).trans fewer, ?_⟩
      intro slot' member set timer installed
      rcases List.mem_cons.mp member with rfl | later
      · rw [fewer.slots] at installed
        exact clearTimerFlag_slot (BitVec.lt_of_getLsbD set) first (fewer.mask slot' set) installed
      · exact spared slot' later set timer installed
  obtain ⟨fewer, spared⟩ := step _ q returns
  exact ⟨fewer, fun slot small => spared slot (List.mem_range.mpr small)⟩

theorem throwAway_timers {fuel defNrTimers count : ℕ} {win : Windows} {hWnd : Hwnd} {w w' : World}
    (returns : mgThrowAwayMessages fuel defNrTimers win hWnd w = some (count, w')) :
    FewerTimers w.queue w'.queue ∧
      ∀ slot < defNrTimers, w'.queue.expiredTimerMask.getLsbD slot = true →
        ∀ timer, w'.queue.timerSlots slot = some timer → isThrown win hWnd timer.hWnd = false := by
  unfold mgThrowAwayMessages at returns
  simp only [Option.bind_eq_bind, Option.bind_eq_some_iff, Prod.exists, Option.pure_def,
    Option.some.injEq, Prod.mk.injEq] at returns
  obtain ⟨_, notified, first, _, synced, second, _, posted, third, last, fourth, -, rfl⟩ := returns
  obtain ⟨_, _, _, -, rfl⟩ := throwNotify_frame first
  obtain ⟨_, _, -, rfl⟩ := cancelSync_frame second
  obtain ⟨_, _, -, rfl⟩ := throwPosted_frame third
  obtain ⟨fewer, spared⟩ := clearTimerFlags_spec fourth
  exact ⟨⟨fewer.slots, fewer.mask⟩, spared⟩

theorem peekPass_fewerTimers {env : PeekEnv} {args : PeekArgs} {s after : PeekState}
    {outcome : Outcome} (effect : PeekEffect env args s outcome after) (good : outcome ≠ .fault) :
    FewerTimers s.world.queue after.world.queue := by
  cases effect with
  | quit _ jumps =>
    obtain ⟨_, _, eq, -, -⟩ := peekQuit_frame jumps
    rw [eq]
    exact ⟨rfl, fun _ => id⟩
  | sync first _ _ _ _ _ tidied =>
    refine FewerTimers.trans ?_ (.tidied tidied)
    split
    · exact ⟨rfl, fun _ => id⟩
    · exact .refl _
  | notify head node tidy removed _ _ _ _ _ _ _ before unlinks after' =>
    refine (FewerTimers.tidied before).trans (FewerTimers.trans ?_ (.tidied after'))
    split at unlinks
    · obtain ⟨heap, -, rfl⟩ := Option.map_eq_some_iff.mp unlinks
      exact ⟨rfl, fun _ => id⟩
    · rw [unlinks]
      exact .refl _
  | posted tidy _ _ _ _ _ _ _ before after' =>
    refine (FewerTimers.tidied before).trans (FewerTimers.trans ?_ (.tidied after'))
    split
    · exact ⟨rfl, fun _ => id⟩
    · exact .refl _
  | paint _ _ _ _ _ tidied => exact .tidied tidied
  | deskTimer tidy _ _ _ _ _ _ _ before after' =>
    refine (FewerTimers.tidied before).trans (FewerTimers.trans ?_ (.tidied after'))
    split
    · exact ⟨rfl, fun _ => id⟩
    · exact .refl _
  | timer _ slot timer tidy _ _ _ _ _ _ before after' =>
    exact (FewerTimers.tidied before).trans ((FewerTimers.clear tidy.queue slot).trans (.tidied after'))
  | nothing _ _ _ _ _ tidied => exact .tidied tidied
  | fault => exact absurd rfl good

/-- **Only the timers themselves** make more of them expire. -/
theorem fewerTimers_step {event : Event} (runs : exec s event = some after)
    (other : ∀ slots mask, event ≠ .timers slots mask) :
    FewerTimers s.world.queue after.world.queue := by
  cases event with
  | queueMessage fuel tick msg =>
    obtain ⟨r, returns, rfl⟩ := Option.map_eq_some_iff.mp runs
    exact .post (kernelQueueMessage_frame returns)
  | post fuel tick pad hWnd nMsg wParam lParam =>
    obtain ⟨r, returns, rfl⟩ := Option.map_eq_some_iff.mp runs
    exact .post (postMessage_frame returns)
  | postQuit =>
    obtain rfl := Option.some.inj runs
    show FewerTimers s.world.queue (postQuitMessage s.world.queue)
    unfold postQuitMessage
    split
    · exact ⟨rfl, fun _ => id⟩
    · exact ⟨rfl, fun _ => id⟩
  | sendNotify addr tick pad hWnd nMsg wParam lParam =>
    obtain ⟨w, returns, rfl⟩ := Option.map_eq_some_iff.mp runs
    obtain ⟨_, _, _, -, rfl⟩ := appendNotify_frame returns
    exact ⟨rfl, fun _ => id⟩
  | notify addr pad hWnd id code dwAddData =>
    obtain ⟨w, returns, rfl⟩ := Option.map_eq_some_iff.mp runs
    obtain ⟨_, _, _, -, rfl⟩ := appendNotify_frame returns
    exact ⟨rfl, fun _ set => set⟩
  | sendPriorNotify addr tick pad hWnd nMsg wParam lParam =>
    obtain ⟨w, returns, rfl⟩ := Option.map_eq_some_iff.mp runs
    obtain ⟨_, _, _, -, rfl⟩ := sendPriorNotify_frame returns
    exact ⟨rfl, fun _ => id⟩
  | sendSync addr win time pad hWnd msg wParam lParam =>
    obtain ⟨-, -, w, returns, rfl⟩ := execSendSync_inv runs
    obtain ⟨_, _, -, rfl⟩ := linkSync_frame returns
    exact ⟨rfl, fun _ => id⟩
  | drain =>
    cases execDrain_effect runs with
    | idle => exact .refl _
    | took => exact ⟨rfl, fun _ => id⟩
    | cleared => exact ⟨rfl, fun _ => id⟩
  | peek env args pMsg =>
    obtain ⟨outcome, afterPass, -, effect, good, rfl⟩ := execPeek_inv runs
    rw [State.world_hold]
    exact peekPass_fewerTimers effect good
  | peekPost nMsgFilterMin nMsgFilterMax uRemoveMsg =>
    obtain rfl := Option.some.inj runs
    show FewerTimers s.world.queue
      (peekPostMessage nMsgFilterMin nMsgFilterMax uRemoveMsg s.world.queue).2.2
    rcases peekPostMessage_frame nMsgFilterMin nMsgFilterMax uRemoveMsg s.world.queue with
      eq | ⟨eq, -⟩
    · rw [eq]
      exact .refl _
    · rw [eq]
      exact ⟨rfl, fun _ => id⟩
  | dispatch index procs result =>
    obtain ⟨_, _, _, rfl⟩ := execDispatch_inv runs
    exact .refl _
  | throwAway fuel defNrTimers win hWnd =>
    obtain ⟨-, count, w, returns, rfl⟩ := execThrowAway_inv runs
    exact (throwAway_timers returns).1
  | empty fuel =>
    obtain ⟨w, returns, rfl⟩ := Option.map_eq_some_iff.mp runs
    obtain ⟨_, synced, heap, first, -, rfl⟩ := emptyMessageQueue_inv returns
    obtain ⟨_, _, -, rfl⟩ := cancelSync_frame first
    exact ⟨rfl, fun _ set => absurd set (by simp [State.setWorld])⟩
  | timers slots mask => exact absurd rfl (other slots mask)
  | deskTimer | windows root =>
    obtain rfl := Option.some.inj runs
    exact ⟨rfl, fun _ => id⟩

end Timers

/-! ### The messages of the senders -/

section Senders

variable {nodes nodes' : List Addr}

theorem dispatch_msg (procs : Procs) (result : LResult) (pMsg : Msg) (frames : Frames) (addr : Addr) :
    ((dispatchMessage procs result pMsg frames).2 addr).msg = (frames addr).msg := by
  rcases dispatchMessage_frames procs result pMsg frames with same | ⟨retval, completed⟩
  · rw [same]
  · rw [completed]
    cases pMsg.pSyncMsg with
    | none => rfl
    | some other => exact (completeSync_some other retval frames).2.1 addr

/-- **The message of a sender stays as it was sent** unless messages are thrown away. -/
theorem exec_msg {event : Event} (runs : exec s event = some after)
    (keeps : ∀ fuel defNrTimers win hWnd, event ≠ .throwAway fuel defNrTimers win hWnd)
    (fills : ∀ fuel, event ≠ .empty fuel) {addr : Addr} (known : addr ∈ s.enqueued) :
    (after.world.frames addr).msg = (s.world.frames addr).msg := by
  by_cases other : leavesSync event = true
  · rw [(other_sync other runs).world.frames]
  cases event with
  | sendSync addr' win time pad hWnd msg wParam lParam =>
    obtain ⟨-, fresh, w, returns, rfl⟩ := execSendSync_inv runs
    have differs : addr ≠ addr' := fun same => fresh (same ▸ known)
    exact ((sendSyncMessage_frames returns).2 addr differs).msg
  | drain =>
    cases execDrain_effect runs with
    | idle => rfl
    | took => rfl
    | cleared => rfl
  | peek env args pMsg =>
    cases execPeek_sync runs with
    | took first w _ same =>
      show (w.frames addr).msg = _
      rw [same.frames]
      rfl
    | looked w same =>
      show (w.frames addr).msg = _
      rw [same.frames]
    | elsewhere outcome afterPass effect _ same =>
      rw [State.world_hold]
      show (afterPass.world.frames addr).msg = _
      rw [same.frames]
  | dispatch index procs result =>
    obtain ⟨source, pMsg, -, rfl⟩ := execDispatch_inv runs
    exact dispatch_msg procs result pMsg _ addr
  | throwAway fuel defNrTimers win hWnd => exact absurd rfl (keeps fuel defNrTimers win hWnd)
  | empty fuel => exact absurd rfl (fills fuel)
  | _ => exact absurd rfl other

/-- The listed senders do not send to the window. -/
def SilentSenders (thrown : Hwnd → Bool) (s : State) (nodes : List Addr) : Prop :=
  ∀ addr ∈ nodes, thrown (s.world.frames addr).msg.hwnd = false

theorem SilentSenders.stay (silent : SilentSenders thrown s nodes) {event : Event}
    (runs : exec s event = some after)
    (keeps : ∀ fuel defNrTimers win hWnd, event ≠ .throwAway fuel defNrTimers win hWnd)
    (fills : ∀ fuel, event ≠ .empty fuel) (known : ∀ addr ∈ nodes, addr ∈ s.enqueued) :
    SilentSenders thrown after nodes := by
  intro addr member
  rw [exec_msg runs keeps fills (known addr member)]
  exact silent addr member

end Senders

/-! ### Silence -/

section Silence

/-- The window that an event sends a message to. -/
def Event.addresses : Event → Option Hwnd
  | .queueMessage _ _ msg => some msg.hwnd
  | .post _ _ _ hWnd _ _ _ | .sendNotify _ _ _ hWnd _ _ _ | .notify _ _ hWnd _ _ _
  | .sendPriorNotify _ _ _ hWnd _ _ _ | .sendSync _ _ _ _ hWnd _ _ _ => some hWnd
  | _ => none

/-- Nothing is sent to the window, and its timers do not expire. -/
def spares (thrown : Hwnd → Bool) (event : Event) : Prop :=
  (∀ hwnd, event.addresses = some hwnd → thrown hwnd = false) ∧
    ∀ slots mask, event = .timers slots mask → ∀ slot, mask.getLsbD slot = true →
      ∀ timer, slots slot = some timer → thrown timer.hWnd = false

/-- The runs looked at. -/
def silentStep (thrown : Hwnd → Bool) (s : State) (event : Event) : Prop :=
  calm s event ∧ spares thrown event

/-- **Nothing in the queue is for the window.** -/
structure Silent (thrown : Hwnd → Bool) (s : State) (nodes : List Addr) (notes : List Msg) : Prop where
  list : SyncLinked s nodes
  holds : HoldsNotes s.world notes
  ring : RingOk s.world.queue
  sync : SilentSenders thrown s nodes
  notify : ∀ msg ∈ notes, thrown msg.hwnd = false
  posted : ∀ msg ∈ pending s.world.queue, thrown msg.hwnd = false
  timers : ∀ slot, s.world.queue.expiredTimerMask.getLsbD slot = true →
    ∀ timer, s.world.queue.timerSlots slot = some timer → thrown timer.hWnd = false

variable {nodes : List Addr} {notes : List Msg}

/-- The senders. -/
theorem Silent.senders (silent : Silent thrown s nodes notes) {event : Event}
    (meets : silentStep thrown s event) (runs : exec s event = some after) :
    ∃ nodes', SyncLinked after nodes' ∧ SilentSenders thrown after nodes' := by
  cases event with
  | throwAway fuel defNrTimers win hWnd =>
    obtain ⟨nodes', list, stay⟩ := silent.list.throwAway meets.1 runs
    refine ⟨nodes', list, fun addr member => ?_⟩
    obtain ⟨old, -, same⟩ := stay addr member
    rw [same]
    exact silent.sync addr old
  | empty fuel => exact ⟨[], silent.list.empty runs, List.forall_mem_nil _⟩
  | sendSync addr win time pad hWnd msg wParam lParam =>
    refine ⟨nodes ++ [addr], silent.list.send runs, List.forall_mem_append.mpr
      ⟨silent.sync.stay runs nofun nofun silent.list.known, List.forall_mem_singleton.mpr ?_⟩⟩
    obtain ⟨-, -, w, returns, rfl⟩ := execSendSync_inv runs
    show thrown (w.frames addr).msg.hwnd = false
    rw [(sendSyncMessage_frames returns).1.msg]
    exact meets.2.1 _ rfl
  | _ =>
    obtain ⟨nodes', list, moves⟩ := silent.list.step runs nofun nofun
    have old := silent.sync.stay runs nofun nofun silent.list.known
    refine ⟨nodes', list, fun addr member => ?_⟩
    cases moves with
    | took is => exact old addr (is ▸ List.mem_cons_of_mem _ member)
    | kept => exact old addr member

/-- The notifications. -/
theorem notify_silent {event : Event} (silent : ∀ msg ∈ notes, thrown msg.hwnd = false)
    (meets : spares thrown event) : ∀ msg ∈ notifyAfter s notes event, thrown msg.hwnd = false := by
  intro msg member
  cases event with
  | sendNotify | notify =>
    rcases List.mem_append.mp member with before | new
    · exact silent msg before
    · obtain rfl := List.mem_singleton.mp new
      exact meets.1 _ rfl
  | sendPriorNotify =>
    rcases List.mem_cons.mp member with rfl | before
    · exact meets.1 _ rfl
    · exact silent msg before
  | peek env args pMsg =>
    have member : msg ∈ if _ then notes.tail else notes := member
    split at member
    · exact silent msg (List.mem_of_mem_tail member)
    · exact silent msg member
  | throwAway => exact silent msg (List.mem_of_mem_filter member)
  | empty => cases member
  | _ => exact silent msg member

/-- Posting merges into an entry for the same window. -/
theorem PostSpec.silent {cap : ℕ} {msg : Msg} {entries entries' : List Msg} {accepted : Bool}
    (spec : PostSpec cap msg entries accepted entries') (own : thrown msg.hwnd = false)
    (silent : ∀ entry ∈ entries, thrown entry.hwnd = false) :
    ∀ entry ∈ entries', thrown entry.hwnd = false := by
  cases spec with
  | appended => exact List.forall_mem_append.mpr ⟨silent, List.forall_mem_singleton.mpr own⟩
  | refused => exact silent
  | mergedMouse before behind entry _ is | mergedTimeout before behind entry _ _ is =>
    rw [is] at silent
    obtain ⟨first, others⟩ := List.forall_mem_append.mp silent
    obtain ⟨here, last⟩ := List.forall_mem_cons.mp others
    exact List.forall_mem_append.mpr ⟨first, List.forall_mem_cons.mpr ⟨here, last⟩⟩

/-- The posted messages. -/
theorem Silent.posted_step (silent : Silent thrown s nodes notes) {event : Event}
    (meets : spares thrown event) (runs : exec s event = some after) :
    ∀ msg ∈ pending after.world.queue, thrown msg.hwnd = false := by
  cases ring_event silent.ring runs with
  | posted msg accepted posts spec =>
    apply spec.silent _ silent.posted
    cases event with
    | queueMessage fuel tick msg' =>
      rw [← Option.some.inj posts]
      exact meets.1 _ rfl
    | post fuel tick pad hWnd nMsg wParam lParam =>
      obtain ⟨-, same⟩ := Option.ite_none_left_eq_some.mp posts
      rw [← Option.some.inj same]
      exact meets.1 _ rfl
    | _ => cases posts
  | took _ _ left =>
    rw [left]
    exact fun msg member => silent.posted msg (List.mem_of_mem_drop member)
  | filtered _ _ left =>
    rw [left]
    exact fun msg member => silent.posted msg (List.mem_of_mem_filter member)

/-- **One event.** -/
theorem Silent.step (silent : Silent thrown s nodes notes) {event : Event}
    (meets : silentStep thrown s event) (runs : exec s event = some after) :
    ∃ nodes', Silent thrown after nodes' (notifyAfter s notes event) := by
  obtain ⟨nodes', list, senders⟩ := silent.senders meets runs
  refine ⟨nodes', list, notify_step silent.holds runs, Message.ring_step silent.ring runs, senders,
    notify_silent silent.notify meets.2, silent.posted_step meets.2 runs, ?_⟩
  by_cases interrupt : ∃ slots mask, event = .timers slots mask
  · obtain ⟨slots, mask, rfl⟩ := interrupt
    obtain rfl := Option.some.inj runs
    exact meets.2.2 slots mask rfl
  · have fewer := fewerTimers_step runs fun slots mask same => interrupt ⟨slots, mask, same⟩
    rw [fewer.slots]
    exact fun slot set => silent.timers slot (fewer.mask slot set)

/-- **Throwing away** makes the queue silent. -/
theorem silent_of_throw (reached : queueSystem.ReachableBy calm s) {fuel defNrTimers : ℕ} {win : Windows}
    {hWnd : Hwnd} (meets : calm s (.throwAway fuel defNrTimers win hWnd))
    (small : ∀ slot, s.world.queue.expiredTimerMask.getLsbD slot = true → slot < defNrTimers)
    (runs : exec s (.throwAway fuel defNrTimers win hWnd) = some after) :
    ∃ nodes notes, Silent (isThrown win hWnd) after nodes notes := by
  have free : queueSystem.Reachable s := reached.mono fun _ _ _ => trivial
  obtain ⟨nodes, list⟩ := syncLinked_of_calm reached
  obtain ⟨notes, holds⟩ := reachable_notify free
  have ring := reachable_ring free
  obtain ⟨nodes', list', stay⟩ := list.throwAway meets runs
  have holds' := notify_step holds runs
  have ring' := Message.ring_step ring runs
  obtain ⟨real, count, w, returns, rfl⟩ := execThrowAway_inv runs
  obtain ⟨fewer, spared⟩ := throwAway_timers returns
  obtain ⟨-, left, -⟩ := throwAway_ring ring real returns
  have gone : ∀ msgs : List Msg, ∀ msg ∈ msgs.filter (fun msg => !addressedTo win hWnd msg.hwnd),
      isThrown win hWnd msg.hwnd = false := by
    intro msgs msg member
    rw [isThrown_eq_addressedTo real]
    exact (Bool.not_eq_true' _).mp (List.mem_filter.mp member).2
  refine ⟨nodes', _, list', holds', ring', fun addr member => ?_, gone notes, ?_, fun slot set => ?_⟩
  · obtain ⟨-, other, same⟩ := stay addr member
    rw [same]
    exact other
  · show ∀ msg ∈ pending w.queue, _
    rw [left]
    exact gone _
  · exact spared slot (small slot (fewer.mask slot set)) set

/-- A timer is offered when its slot has expired. -/
theorem timer_found {env : PeekEnv} {a : PeekArgs} {time : Dword} {w : World}
    (serves : (peekFound env a time w).1.ServesTimer) : ∃ slot timer,
      w.queue.expiredTimerMask.getLsbD slot = true ∧ w.queue.timerSlots slot = some timer ∧
      ((peekFound env a time w).1 = .callTimer slot timer ∨
        (peekFound env a time w).1 = .got .timer ∧ (peekFound env a time w).2.hwnd = timer.hWnd) := by
  unfold peekFound at serves ⊢
  cases soon : soonFound env a time w with
  | some offer =>
    rw [soon] at serves
    exact absurd serves (soonFound_untimed soon)
  | none =>
    rw [soon] at serves
    have late : (none <|> lookTimer env a (offeredTime time w) w) =
        lookTimer env a (offeredTime time w) w := rfl
    rw [late] at serves ⊢
    unfold lookTimer at serves ⊢
    split at serves
    · rename_i asked
      rw [if_pos asked]
      split at serves
      · exact serves.elim
      · exact serves.elim
      · rename_i slot search
        cases installed : w.queue.timerSlots slot with
        | none =>
          rw [installed] at serves
          exact serves.elim
        | some timer =>
          refine ⟨slot, timer, timerSearch_hit search, installed, ?_⟩
          simp only [Option.map_some, Option.getD_some]
          by_cases proc : timer.proc = true
          · exact .inl (by rw [if_pos proc])
          · exact .inr (by rw [if_neg proc]; exact ⟨rfl, rfl⟩)
    · exact serves.elim

theorem checkCaptured_hwnd (env : PeekEnv) (msg : Msg) :
    (checkCapturedMouseMessage env msg).hwnd = msg.hwnd := by
  unfold checkCapturedMouseMessage
  split
  · rfl
  · rfl

/-- **A pass over a silent queue.** -/
theorem Silent.peek (silent : Silent thrown s nodes notes) {env : PeekEnv} {args : PeekArgs} {pMsg : Msg}
    {outcome : Outcome} {final : PeekState} (pass : peekPass env args ⟨s.world, pMsg⟩ = (outcome, final)) :
    (∀ source, outcome = .got source → source ≠ .paint → source ≠ .deskTimer →
      thrown final.pMsg.hwnd = false) ∧
    ∀ slot timer, outcome = .callTimer slot timer → thrown timer.hWnd = false := by
  have effect := peekPass_effect pass
  obtain ⟨found, same⟩ := peekPass_found env args ⟨s.world, pMsg⟩
  rw [pass] at found same
  refine ⟨?_, ?_⟩
  · rintro source rfl notPaint notDesk
    cases source with
    | sync first =>
      obtain ⟨atHead, returned, -⟩ := peekPass_sync effect
      rw [returned]
      exact silent.sync first (List.mem_of_mem_head? (silent.list.linked.first_eq.symm.trans atHead))
    | notify =>
      obtain ⟨msg, rest, popped, returned, -⟩ := peekPass_notify silent.holds pass
      rw [returned]
      exact silent.notify msg (popped ▸ List.mem_cons_self)
    | posted =>
      obtain ⟨-, msg, rest, popped, -, returned, -⟩ := peekPass_posted silent.ring effect
      rw [returned, checkCaptured_hwnd]
      exact silent.posted msg (popped ▸ List.mem_cons_self)
    | paint => exact absurd rfl notPaint
    | deskTimer => exact absurd rfl notDesk
    | timer =>
      have serves : (peekFound env args pMsg.time s.world).1.ServesTimer := by
        rw [← found]
        trivial
      obtain ⟨slot, timer, set, installed, calls | ⟨-, hwnd⟩⟩ := timer_found serves
      · cases found.trans calls
      · have visible := congrArg Msg.hwnd (same .timer rfl)
        rw [show final.pMsg.hwnd = timer.hWnd from visible.trans hwnd]
        exact silent.timers slot set timer installed
  · rintro slot timer rfl
    have serves : (peekFound env args pMsg.time s.world).1.ServesTimer := by
      rw [← found]
      trivial
    obtain ⟨slot', timer', set, installed, calls | ⟨got, -⟩⟩ := timer_found serves
    · cases found.trans calls
      exact silent.timers slot set timer installed
    · cases found.trans got

/-- **No message for a window that was thrown away.** Every `__mg_throw_away_messages` of the run finds
a spaced list, and at the one looked at the expired timers are in the table. In every run behind it of
posts, sends, peeks, dispatches, further throw-away calls and timer interrupts that sends nothing to the
window and its controls and lets none of their timers expire: whatever its arguments, a pass of
`PeekMessageEx` that returns a synchronous message, a notification, a posted message or a timer does not
return one for the window, and it calls no procedure of one of its timers. -/
theorem thrown_window_silent (reached : queueSystem.ReachableBy calm s) {fuel defNrTimers : ℕ}
    {win : Windows} {hWnd : Hwnd} (meets : calm s (.throwAway fuel defNrTimers win hWnd))
    (small : ∀ slot, s.world.queue.expiredTimerMask.getLsbD slot = true → slot < defNrTimers)
    {thrownOut : State} (throws : exec s (.throwAway fuel defNrTimers win hWnd) = some thrownOut)
    {events : List Event} (run : RunBy queueSystem (silentStep (isThrown win hWnd)) thrownOut events after)
    {env : PeekEnv} {args : PeekArgs} {pMsg : Msg} {outcome : Outcome} {final : PeekState}
    (pass : peekPass env args ⟨after.world, pMsg⟩ = (outcome, final)) :
    (∀ source, outcome = .got source → source ≠ .paint → source ≠ .deskTimer →
      isThrown win hWnd final.pMsg.hwnd = false) ∧
    ∀ slot timer, outcome = .callTimer slot timer → isThrown win hWnd timer.hWnd = false := by
  have silent : ∃ nodes notes, Silent (isThrown win hWnd) after nodes notes := by
    refine run.invariant (fun _ m => ∃ nodes notes, Silent (isThrown win hWnd) m nodes notes) ?_ ?_
    · exact silent_of_throw reached meets small throws
    · rintro - event middle next ⟨nodes, notes, silent⟩ meets runs
      obtain ⟨nodes', next⟩ := silent.step meets runs
      exact ⟨nodes', _, next⟩
  obtain ⟨nodes, notes, silent⟩ := silent
  exact silent.peek pass

/-- A message for window 1 is posted, and one for window 2. -/
def postedTwo : List Event := [.post 5 0 none 1 200 0 0, .post 5 0 none 2 200 0 0]

/-- What goes on behind it: window 2 is sent more, its timer expires, and a message is taken. -/
def onlySecond : List Event :=
  [.post 5 0 none 2 300 0 0, .sendSync 1 mainWin 0 none 2 5 0 0,
    .timers (fun slot => if slot = 0 then some ⟨2, 1, 0, false⟩ else none) 1,
    .peek ⟨4, 0, 0, 0, 9, false, fun _ lParam => lParam, fun _ => 0⟩ ⟨2, 0, 0, pmRemove⟩ Msg.zero]

theorem onlySecond_spares : ∀ event ∈ onlySecond, ∀ s, silentStep (isThrown mainWin 1) s event := by
  intro event member s
  simp only [onlySecond, List.mem_cons, List.not_mem_nil, or_false] at member
  rcases member with rfl | rfl | rfl | rfl
  · refine ⟨trivial, fun hwnd same => ?_, nofun⟩
    obtain rfl := Option.some.inj same
    decide
  · refine ⟨trivial, fun hwnd same => ?_, nofun⟩
    obtain rfl := Option.some.inj same
    decide
  · refine ⟨trivial, nofun, fun slots mask same slot set timer installed => ?_⟩
    obtain ⟨rfl, rfl⟩ := Event.timers.inj same
    obtain ⟨-, same⟩ := Option.ite_none_right_eq_some.mp installed
    obtain rfl := Option.some.inj same
    decide
  · exact ⟨trivial, nofun, nofun⟩

theorem postedTwo_runs : ((State.blank.run postedTwo).bind fun s =>
    (exec s (.throwAway 5 4 mainWin 1)).bind fun t => (t.run onlySecond).map fun after =>
      ((pending after.world.queue).length, s.world.queue.pFirstSyncMsg, s.world.queue.expiredTimerMask)) =
    some (2, none, 0) := by
  decide +kernel

theorem thrown_window_silent_two : ∃ s thrownOut after, State.blank.run postedTwo = some s ∧
    exec s (.throwAway 5 4 mainWin 1) = some thrownOut ∧ thrownOut.run onlySecond = some after ∧
    (pending after.world.queue).length = 2 ∧
    ∀ env args pMsg outcome final, peekPass env args ⟨after.world, pMsg⟩ = (outcome, final) →
      (∀ source, outcome = .got source → source ≠ .paint → source ≠ .deskTimer →
        isThrown mainWin 1 final.pMsg.hwnd = false) ∧
      ∀ slot timer, outcome = .callTimer slot timer → isThrown mainWin 1 timer.hWnd = false := by
  obtain ⟨s, posts, runs⟩ := Option.bind_eq_some_iff.mp postedTwo_runs
  obtain ⟨thrownOut, throws, rest⟩ := Option.bind_eq_some_iff.mp runs
  obtain ⟨after, goes, data⟩ := Option.map_eq_some_iff.mp rest
  obtain ⟨left, data⟩ := Prod.mk.inj data
  obtain ⟨noSender, noTimer⟩ := Prod.mk.inj data
  have start : queueSystem.ReachableBy calm State.blank := .start blank_init
  have reached : queueSystem.ReachableBy calm s := by
    refine start.run_all (fun _ _ _ => id) ?_ posts
    intro event member state
    rcases List.mem_cons.mp member with rfl | later
    · trivial
    · rw [List.mem_singleton.mp later]
      trivial
  refine ⟨s, thrownOut, after, posts, throws, goes, left, fun env args pMsg outcome final pass => ?_⟩
  refine thrown_window_silent reached ?_ ?_ throws
    (.of_run (fun _ _ _ => id) onlySecond_spares goes) pass
  · intro nodes chain
    rw [noSender] at chain
    rw [isList_null_iff.mp chain]
    trivial
  · intro slot set
    rw [noTimer] at set
    exact absurd set (by simp)

end Silence

end Aple.Message
