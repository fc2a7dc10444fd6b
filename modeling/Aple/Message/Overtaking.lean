/-
**How many messages overtake a posted one.**

Synchronous messages and notifications are returned before posted ones, whenever they come.

* `SyncMoves` — what an event does to the list of the senders; `syncLinked_of_calm` — it is a list as
  long as the throw-away calls find it spaced.
* `Event.takes`, `Event.arrives` — the passes that take whatever is first, and the events that put
  something in front of the posted messages; `steady` — the events of the runs looked at.
* `InFront` — what is in front of the end of a part of the ring.
* **`bounded_overtaking`** — a posted message is handed out by the pass that comes after as many
  others as there were messages in front of it or came to be there.
-/

import Aple.Lib.Budget
import Aple.Message.Flags
import Aple.Message.NotifyDeque
import Aple.Message.QuitProtocol
import Aple.Message.RingFifo
import Aple.Message.SyncList

namespace Aple.Message

open Aple.Lib

variable {s after : State} {nodes : List Addr} {notes : List Msg}

/-! ### The list of the senders -/

/-- Dispatching writes no pointer. -/
theorem dispatch_pNext (procs : Procs) (result : LResult) (pMsg : Msg) (frames : Frames) :
    (dispatchMessage procs result pMsg frames).2.pNext = frames.pNext := by
  rcases dispatchMessage_frames procs result pMsg frames with same | ⟨retval, completed⟩
  · rw [same]
  · rw [completed]
    cases pMsg.pSyncMsg with
    | none => rfl
    | some addr => exact (completeSync_some addr retval frames).1

/-- What an event does to the list: one sender more, one less at the head, or nothing. -/
inductive SyncMoves (s after : State) (nodes : List Addr) : Event → List Addr → Prop
  | sent {addr : Addr} {win : Windows} {time : Dword} {pad : Ptr} {hWnd : Hwnd} {msg : MsgId}
      {wParam : WParam} {lParam : LParam} : SyncMoves s after nodes
        (.sendSync addr win time pad hWnd msg wParam lParam) (nodes ++ [addr])
  | took {event : Event} {first : Addr} {rest : List Addr} (is : nodes = first :: rest) :
      SyncMoves s after nodes event rest
  | kept {event : Event} (same : after.world.queue.pFirstSyncMsg = s.world.queue.pFirstSyncMsg) :
      SyncMoves s after nodes event nodes

namespace SyncLinked

/-- An event that does not throw messages away. -/
theorem step (list : SyncLinked s nodes) {event : Event} (runs : exec s event = some after)
    (keeps : ∀ fuel defNrTimers win hWnd, event ≠ .throwAway fuel defNrTimers win hWnd)
    (fills : ∀ fuel, event ≠ .empty fuel) :
    ∃ nodes', SyncLinked after nodes' ∧ SyncMoves s after nodes event nodes' := by
  by_cases other : leavesSync event = true
  · have kept := other_sync other runs
    have next : after.world.frames.pNext = s.world.frames.pNext := by rw [kept.world.frames]
    exact ⟨nodes, list.congr next kept.world.first kept.world.last kept.enqueued,
      .kept kept.world.first⟩
  cases event with
  | sendSync addr win time pad hWnd msg wParam lParam => exact ⟨_, list.send runs, .sent⟩
  | drain =>
    cases execDrain_effect runs with
    | idle => exact ⟨nodes, list, .kept rfl⟩
    | took first _ atHead =>
      obtain ⟨rest, is, popped⟩ := list.take atHead
      exact ⟨rest, popped _ rfl rfl rfl rfl, .took is⟩
    | cleared => exact ⟨nodes, list.congr rfl rfl rfl rfl, .kept rfl⟩
  | peek env args pMsg =>
    cases execPeek_sync runs with
    | took first w atHead same =>
      obtain ⟨rest, is, popped⟩ := list.take atHead
      exact ⟨rest, popped _ (congrArg Frames.pNext same.frames) same.first same.last rfl, .took is⟩
    | looked w same =>
      exact ⟨nodes, list.congr (congrArg Frames.pNext same.frames) same.first same.last rfl,
        .kept same.first⟩
    | elsewhere outcome afterPass effect other same =>
      have first : ((s.setWorld afterPass.world).hold outcome args.remove
          afterPass.pMsg).world.queue.pFirstSyncMsg = s.world.queue.pFirstSyncMsg := by
        rw [State.world_hold]
        exact same.first
      refine ⟨nodes, list.congr ?_ first ?_ ?_, .kept first⟩
      · rw [State.world_hold]
        exact congrArg Frames.pNext same.frames
      · rw [State.world_hold]
        exact same.last
      · unfold State.hold
        split
        · split <;> rfl
        · rfl
  | dispatch index procs result =>
    obtain ⟨source, pMsg, -, rfl⟩ := execDispatch_inv runs
    exact ⟨nodes, list.congr (dispatch_pNext procs result pMsg _) rfl rfl rfl, .kept rfl⟩
  | throwAway fuel defNrTimers win hWnd => exact absurd rfl (keeps fuel defNrTimers win hWnd)
  | empty fuel => exact absurd rfl (fills fuel)
  | _ => exact absurd rfl other

end SyncLinked

/-- **The list is a list** as long as the throw-away calls find it spaced. -/
theorem syncLinked_of_calm (reached : queueSystem.ReachableBy calm s) :
    ∃ nodes, SyncLinked s nodes := by
  refine reached.invariant (fun s => ∃ nodes, SyncLinked s nodes) ?_ ?_
  · rintro _ ⟨defMsgqueueLen, iBufferLen, buffer, frames, -, rfl⟩
    exact ⟨[], Linked.nil, List.forall_mem_nil _⟩
  · rintro s event after - ⟨nodes, list⟩ meets runs
    cases event with
    | throwAway fuel defNrTimers win hWnd =>
      obtain ⟨nodes', list', -⟩ := list.throwAway meets runs
      exact ⟨nodes', list'⟩
    | empty fuel => exact ⟨[], list.empty runs⟩
    | _ =>
      obtain ⟨nodes', list', -⟩ := list.step runs nofun nofun
      exact ⟨nodes', list'⟩

/-! ### What is taken and what arrives -/

/-- A pass that takes whatever is first: without a filter, and with `PM_REMOVE`. -/
def Event.takes : Event → ℕ
  | .peek _ args _ =>
    if args.nMsgFilterMin = 0 ∧ args.nMsgFilterMax = 0 ∧ args.remove = true then 1 else 0
  | _ => 0

/-- A synchronous message. -/
def Event.sends : Event → ℕ
  | .sendSync .. => 1
  | _ => 0

/-- A notification. -/
def Event.notifies : Event → ℕ
  | .sendNotify .. | .notify .. | .sendPriorNotify .. => 1
  | _ => 0

/-- What is put in front of the posted messages. -/
def Event.arrives (event : Event) : ℕ := event.sends + event.notifies

/-- The events of the runs looked at: the queue does not begin to quit, no messages are thrown away,
and `PeekPostMessage` leaves what it returns. -/
def steady (_ : State) : Event → Prop
  | .postQuit | .throwAway .. | .empty _ => False
  | .peekPost _ _ uRemoveMsg => uRemoveMsg ≠ pmRemove
  | _ => True

/-- The posted messages that were handed out. -/
def State.handedOut (s : State) : ℕ := s.takenOut.count .posted

theorem SyncMoves.length_le {event : Event} {nodes' : List Addr}
    (moves : SyncMoves s after nodes event nodes') : nodes'.length ≤ nodes.length + event.sends := by
  cases moves with
  | sent =>
    rw [List.length_append]
    exact le_rfl
  | took is =>
    rw [is, List.length_cons]
    omega
  | kept => exact Nat.le_add_right _ _

theorem notifyAfter_length_le (event : Event) :
    (notifyAfter s notes event).length ≤ notes.length + event.notifies := by
  cases event with
  | sendNotify | notify =>
    show (notes ++ [_]).length ≤ _
    rw [List.length_append]
    exact le_rfl
  | sendPriorNotify => exact le_rfl
  | peek env args pMsg =>
    show (if _ then notes.tail else notes).length ≤ notes.length
    split
    · rw [List.length_tail]
      exact Nat.sub_le _ _
    · exact le_rfl
  | throwAway => exact List.length_filter_le _ _
  | empty => exact Nat.zero_le _
  | _ => exact Nat.le_add_right _ _

theorem PostSpec.length_le {cap : ℕ} {msg : Msg} {entries entries' : List Msg} {posted : Bool}
    (spec : PostSpec cap msg entries posted entries') : entries.length ≤ entries'.length := by
  cases spec with
  | appended =>
    rw [List.length_append]
    exact Nat.le_add_right _ _
  | refused => exact le_rfl
  | mergedMouse before later entry _ is | mergedTimeout before later entry _ _ is =>
    rw [is]
    simp

/-- Only a pass takes entries of the ring away. -/
theorem pending_grows {event : Event} (ring : RingOk s.world.queue) (steady : steady s event)
    (other : ∀ env args pMsg, event ≠ .peek env args pMsg) (runs : exec s event = some after) :
    (pending s.world.queue).length ≤ (pending after.world.queue).length := by
  by_cases leaves : leavesRing event = true
  · rw [(other_ring leaves runs).pending]
  cases event with
  | queueMessage fuel tick msg =>
    obtain ⟨r, returns, rfl⟩ := Option.map_eq_some_iff.mp runs
    exact ((kernelQueueMessage_spec ring tick msg).2 fuel r returns).list.length_le
  | post fuel tick pad hWnd nMsg wParam lParam =>
    obtain ⟨r, returns, rfl⟩ := Option.map_eq_some_iff.mp runs
    unfold postMessage at returns
    split at returns
    · rw [← Option.some.inj returns]
      exact le_rfl
    · exact ((kernelQueueMessage_spec ring tick _).2 fuel r returns).list.length_le
  | peekPost nMsgFilterMin nMsgFilterMax uRemoveMsg =>
    rw [← Option.some.inj runs]
    rcases is : peekPostMessage nMsgFilterMin nMsgFilterMax uRemoveMsg s.world.queue with
      ⟨found, pMsg, q'⟩
    obtain ⟨-, missed, returned⟩ := peekPostMessage_spec ring _ _ _ is
    show _ ≤ (pending q').length
    cases found with
    | false => rw [missed rfl]
    | true =>
      obtain ⟨_, _, -, -, same⟩ := returned rfl
      rw [same, if_neg steady]
  | peek env args pMsg => exact absurd rfl (other env args pMsg)
  | throwAway | empty => cases steady
  | _ => exact absurd rfl leaves

/-- Only a pass hands posted messages out. -/
theorem handedOut_same {event : Event} (other : ∀ env args pMsg, event ≠ .peek env args pMsg)
    (steady : steady s event) (runs : exec s event = some after) : after.handedOut = s.handedOut := by
  by_cases leaves : leavesSync event = true
  · have kept := other_sync leaves runs
    unfold State.handedOut State.takenOut
    rw [kept.held, kept.dispatched]
  cases event with
  | sendSync addr win time pad hWnd msg wParam lParam =>
    obtain ⟨-, -, w, -, rfl⟩ := execSendSync_inv runs
    rfl
  | drain =>
    cases execDrain_effect runs with
    | idle | cleared => rfl
    | took first =>
      unfold State.handedOut State.takenOut
      simp [List.count_append, State.setWorld]
  | dispatch index procs result =>
    obtain ⟨source, pMsg, found, rfl⟩ := execDispatch_inv runs
    exact (takenOut_dispatch found rfl rfl).count_eq _
  | peek env args pMsg => exact absurd rfl (other env args pMsg)
  | throwAway | empty => cases steady
  | _ => exact absurd rfl leaves

/-! ### A pass -/

/-- What a pass does to the lengths: what it takes is paid for by the synchronous messages, the
notifications, or a posted message that is handed out, unless there is none of them. -/
structure Paid (s after : State) (event : Event) (nodes nodes' : List Addr)
    (notes notes' : List Msg) : Prop where
  hands : s.handedOut ≤ after.handedOut
  keeps : s.handedOut + (pending s.world.queue).length ≤
    after.handedOut + (pending after.world.queue).length
  pays : pending s.world.queue ≠ [] → event.takes + nodes'.length + notes'.length + s.handedOut ≤
    nodes.length + notes.length + after.handedOut

theorem Event.takes_le {env : PeekEnv} {args : PeekArgs} {pMsg : Msg} :
    (Event.peek env args pMsg).takes ≤ 1 := by
  show (if args.nMsgFilterMin = 0 ∧ args.nMsgFilterMax = 0 ∧ args.remove = true then 1 else 0) ≤ 1
  split
  · exact le_rfl
  · exact Nat.zero_le 1

/-- A pass that does not remove anything takes nothing. -/
theorem Event.takes_keeps {env : PeekEnv} {args : PeekArgs} {pMsg : Msg}
    (keeps : ¬ args.remove = true) : (Event.peek env args pMsg).takes = 0 :=
  if_neg fun all => keeps all.2.2

/-- A pass that takes something has no filter. -/
theorem Event.takes_wanted {env : PeekEnv} {args : PeekArgs} {pMsg : Msg}
    (takes : (Event.peek env args pMsg).takes ≠ 0) (message : MsgId) :
    isMsgWanted args message = true := by
  obtain ⟨min, max, -⟩ : args.nMsgFilterMin = 0 ∧ args.nMsgFilterMax = 0 ∧ args.remove = true := by
    by_contra filtered
    exact takes (if_neg filtered)
  unfold isMsgWanted
  rw [min, max]
  rfl

/-- The pass returned a posted message, or handed none out. -/
theorem handedOut_hold (s : State) (w : World) (outcome : Outcome) (remove : Bool) (pMsg : Msg) :
    ((s.setWorld w).hold outcome remove pMsg).handedOut =
      s.handedOut + if outcome = .got .posted ∧ remove = true then 1 else 0 := by
  unfold State.hold State.handedOut State.takenOut
  cases outcome with
  | got source =>
    cases remove with
    | false => simp [State.setWorld]
    | true =>
      cases source with
      | posted =>
        simp only [State.setWorld, if_true, List.map_append, List.count_append]
        simp [Nat.add_right_comm]
      | sync | notify | paint | deskTimer | timer => simp [State.setWorld]
  | quit | callTimer | nothing | fault => simp [State.setWorld]

/-- A pass that leaves the senders alone. -/
theorem SyncLinked.hold (list : SyncLinked s nodes) {w : World} (same : SyncSame s.world w)
    (outcome : Outcome) (remove : Bool) (pMsg : Msg) :
    SyncLinked ((s.setWorld w).hold outcome remove pMsg) nodes := by
  apply list.congr
  · rw [State.world_hold]
    exact congrArg Frames.pNext same.frames
  · rw [State.world_hold]
    exact same.first
  · rw [State.world_hold]
    exact same.last
  · exact State.enqueued_hold ..

/-- An unfiltered pass that ends behind the posted messages found none. -/
theorem posted_empty {env : PeekEnv} {args : PeekArgs} {pMsg : Msg} {outcome : Outcome}
    {afterPass : PeekState} (effect : PeekEffect env args ⟨s.world, pMsg⟩ outcome afterPass)
    (holds : HoldsNotes s.world notes) (flags : FlagsOk s.world.queue)
    (running : s.world.queue.has .quit = false) (good : outcome ≠ .fault)
    (behind : ∀ source, outcome = .got source → source = .paint ∨ source = .deskTimer ∨ source = .timer)
    (takes : (Event.peek env args pMsg).takes ≠ 0) : pending s.world.queue = [] := by
  obtain ⟨addrs, chain, -⟩ := holds
  have live : ∀ head, s.world.queue.pFirstNotifyMsg = some head → s.world.heap.cells head ≠ none := by
    intro head atHead
    apply (chain.owned.live head).mpr
    apply List.mem_of_mem_head?
    rw [← chain.first_eq, atHead]
    rfl
  obtain ⟨-, -, noPosted⟩ := empty_of_skipped (Event.takes_wanted takes) flags live
  have skips : SkipsPosted args s.world := by
    cases effect with
    | quit _ jumps => simp [peekQuit, running] at jumps
    | sync | notify | posted => rcases behind _ rfl with is | is | is <;> cases is
    | paint _ _ _ _ skips | deskTimer _ _ _ _ _ skips | nothing _ _ _ _ skips => exact skips
    | timer _ _ _ _ _ _ _ _ skips => exact skips
    | fault => exact absurd rfl good
  unfold pending
  rw [noPosted skips, Ring.contents_self]

section Passes

variable {env : PeekEnv} {args : PeekArgs} {pMsg : Msg} {afterPass : PeekState}

/-- What the ends of a pass have to show: the senders, the notifications, the ring and the count. -/
theorem paid_of_pass {outcome : Outcome} {nodes' : List Addr} {notes' : List Msg} {handed : ℕ}
    (list : SyncLinked ((s.setWorld afterPass.world).hold outcome args.remove afterPass.pMsg) nodes')
    (holds : HoldsNotes afterPass.world notes')
    (counted : (if outcome = .got .posted ∧ args.remove = true then 1 else 0) = handed)
    (keeps : (pending s.world.queue).length ≤ handed + (pending afterPass.world.queue).length)
    (pays : pending s.world.queue ≠ [] → (Event.peek env args pMsg).takes + nodes'.length +
      notes'.length ≤ nodes.length + notes.length + handed) :
    ∃ nodes' notes',
      SyncLinked ((s.setWorld afterPass.world).hold outcome args.remove afterPass.pMsg) nodes' ∧
      HoldsNotes ((s.setWorld afterPass.world).hold outcome args.remove afterPass.pMsg).world notes' ∧
      Paid s ((s.setWorld afterPass.world).hold outcome args.remove afterPass.pMsg)
        (.peek env args pMsg) nodes nodes' notes notes' := by
  have hands := handedOut_hold s afterPass.world outcome args.remove afterPass.pMsg
  rw [counted] at hands
  refine ⟨nodes', notes', list, ?_, ?_, ?_, fun some_pending => ?_⟩
  · rw [State.world_hold]
    exact holds
  · rw [hands]
    exact Nat.le_add_right _ _
  · rw [hands, State.world_hold]
    show _ ≤ _ + (pending afterPass.world.queue).length
    omega
  · have := pays some_pending
    rw [hands]
    omega

/-- A pass that ends in the synchronous messages. -/
theorem sync_pays {first : Addr} (list : SyncLinked s nodes) (holds : HoldsNotes s.world notes)
    (pass : peekPass env args ⟨s.world, pMsg⟩ = (.got (.sync first), afterPass)) :
    ∃ nodes' notes',
      SyncLinked ((s.setWorld afterPass.world).hold (.got (.sync first)) args.remove afterPass.pMsg)
        nodes' ∧
      HoldsNotes ((s.setWorld afterPass.world).hold (.got (.sync first)) args.remove
        afterPass.pMsg).world notes' ∧
      Paid s ((s.setWorld afterPass.world).hold (.got (.sync first)) args.remove afterPass.pMsg)
        (.peek env args pMsg) nodes nodes' notes notes' := by
  have effect := peekPass_effect pass
  obtain ⟨atHead, -, same⟩ := peekPass_sync effect
  have holds' := peekPass_other holds pass nofun nofun
  have ring := (peekPass_ring effect nofun nofun).pending
  have once : (Event.peek env args pMsg).takes ≤ 1 := Event.takes_le
  have keeps : (pending s.world.queue).length ≤ 0 + (pending afterPass.world.queue).length := by
    rw [ring, Nat.zero_add]
  by_cases remove : args.remove = true
  · rw [if_pos remove] at same
    obtain ⟨rest, rfl, popped⟩ := list.take atHead
    have next : afterPass.world.frames.pNext = s.world.frames.pNext := congrArg Frames.pNext same.frames
    refine paid_of_pass (popped _ ?_ ?_ ?_ (State.enqueued_hold ..)) holds' (if_neg nofun) keeps
      fun _ => ?_
    · rw [State.world_hold]
      exact next
    · rw [State.world_hold]
      exact same.first
    · rw [State.world_hold]
      exact same.last
    · rw [List.length_cons]
      omega
  · rw [if_neg remove] at same
    refine paid_of_pass (list.hold same _ _ _) holds' (if_neg nofun) keeps fun _ => ?_
    rw [Event.takes_keeps remove]
    omega

/-- A pass that ends in the notifications. -/
theorem notify_pays (list : SyncLinked s nodes) (holds : HoldsNotes s.world notes)
    (pass : peekPass env args ⟨s.world, pMsg⟩ = (.got .notify, afterPass)) :
    ∃ nodes' notes',
      SyncLinked ((s.setWorld afterPass.world).hold (.got .notify) args.remove afterPass.pMsg) nodes' ∧
      HoldsNotes ((s.setWorld afterPass.world).hold (.got .notify) args.remove afterPass.pMsg).world
        notes' ∧
      Paid s ((s.setWorld afterPass.world).hold (.got .notify) args.remove afterPass.pMsg)
        (.peek env args pMsg) nodes nodes' notes notes' := by
  have effect := peekPass_effect pass
  have same := peekPass_syncSame effect nofun nofun
  obtain ⟨msg, rest, rfl, -, holds'⟩ := peekPass_notify holds pass
  have ring := (peekPass_ring effect nofun nofun).pending
  have once : (Event.peek env args pMsg).takes ≤ 1 := Event.takes_le
  have keeps : (pending s.world.queue).length ≤ 0 + (pending afterPass.world.queue).length := by
    rw [ring, Nat.zero_add]
  refine paid_of_pass (list.hold same _ _ _) holds' (if_neg nofun) keeps fun _ => ?_
  by_cases remove : args.remove = true
  · rw [if_pos remove, List.length_cons]
    omega
  · rw [if_neg remove, Event.takes_keeps remove]
    omega

/-- A pass that ends in the posted messages. -/
theorem posted_pays (list : SyncLinked s nodes) (holds : HoldsNotes s.world notes)
    (ring : RingOk s.world.queue)
    (pass : peekPass env args ⟨s.world, pMsg⟩ = (.got .posted, afterPass)) :
    ∃ nodes' notes',
      SyncLinked ((s.setWorld afterPass.world).hold (.got .posted) args.remove afterPass.pMsg) nodes' ∧
      HoldsNotes ((s.setWorld afterPass.world).hold (.got .posted) args.remove afterPass.pMsg).world
        notes' ∧
      Paid s ((s.setWorld afterPass.world).hold (.got .posted) args.remove afterPass.pMsg)
        (.peek env args pMsg) nodes nodes' notes notes' := by
  have effect := peekPass_effect pass
  have same := peekPass_syncSame effect nofun nofun
  have holds' := peekPass_other holds pass nofun nofun
  obtain ⟨-, msg, rest, whole, -, -, left⟩ := peekPass_posted ring effect
  have once : (Event.peek env args pMsg).takes ≤ 1 := Event.takes_le
  by_cases remove : args.remove = true
  · rw [if_pos remove] at left
    refine paid_of_pass (list.hold same _ _ _) holds' (if_pos ⟨rfl, remove⟩) ?_ fun _ => ?_
    · rw [whole, List.length_cons, left, Nat.add_comm]
    · omega
  · rw [if_neg remove] at left
    refine paid_of_pass (list.hold same _ _ _) holds' (if_neg fun both => remove both.2) ?_ fun _ => ?_
    · rw [left, Nat.zero_add]
    · rw [Event.takes_keeps remove]
      omega

/-- **A pass pays.** -/
theorem peek_pays (list : SyncLinked s nodes) (holds : HoldsNotes s.world notes)
    (ring : RingOk s.world.queue) (flags : FlagsOk s.world.queue)
    (running : s.world.queue.has .quit = false) (runs : execPeek s env args pMsg = some after) :
    ∃ nodes' notes', SyncLinked after nodes' ∧ HoldsNotes after.world notes' ∧
      Paid s after (.peek env args pMsg) nodes nodes' notes notes' := by
  obtain ⟨outcome, afterPass, pass, effect, good, rfl⟩ := execPeek_inv runs
  by_cases inSync : ∃ first, outcome = .got (.sync first)
  · obtain ⟨first, rfl⟩ := inSync
    exact sync_pays list holds pass
  by_cases inNotify : outcome = .got .notify
  · subst inNotify
    exact notify_pays list holds pass
  by_cases inPosted : outcome = .got .posted
  · subst inPosted
    exact posted_pays list holds ring pass
  -- behind the posted messages nothing is taken from the three containers
  have other : ∀ addr, outcome ≠ .got (.sync addr) := fun addr is => inSync ⟨addr, is⟩
  have same := peekPass_syncSame effect other good
  have holds' := peekPass_other holds pass inNotify good
  have ring' := (peekPass_ring effect inPosted good).pending
  refine paid_of_pass (list.hold same _ _ _) holds' (if_neg fun both => inPosted both.1) ?_
    fun some_pending => ?_
  · rw [ring', Nat.zero_add]
  · have nothing : (Event.peek env args pMsg).takes = 0 := by
      by_contra takes
      refine some_pending (posted_empty effect holds flags running good ?_ takes)
      intro source is
      cases source with
      | sync node => exact absurd is (other node)
      | notify => exact absurd is inNotify
      | posted => exact absurd is inPosted
      | paint => exact .inl rfl
      | deskTimer => exact .inr (.inl rfl)
      | timer => exact .inr (.inr rfl)
    omega

end Passes

/-! ### The bound -/

/-- The posted messages up to a place in the ring: how many messages are in front of it, counting
those that lie in it. -/
structure InFront (goal : ℕ) (s : State) (nodes : List Addr) (notes : List Msg) (count : ℕ) : Prop where
  list : SyncLinked s nodes
  holds : HoldsNotes s.world notes
  ring : RingOk s.world.queue
  flags : FlagsOk s.world.queue
  running : s.world.queue.has .quit = false
  short : s.handedOut < goal
  inside : goal ≤ s.handedOut + (pending s.world.queue).length
  count : count = nodes.length + notes.length + (goal - s.handedOut)

theorem running_step {event : Event} (running : s.world.queue.has .quit = false)
    (steady : steady s event) (runs : exec s event = some after) :
    after.world.queue.has .quit = false := by
  by_cases central : event.Central
  · cases event with
    | peek env args pMsg =>
      obtain ⟨outcome, afterPass, -, effect, good, rfl⟩ := execPeek_inv runs
      rw [State.world_hold]
      exact (effect.ranOn good running).2.quit.trans running
    | windows root =>
      rw [← Option.some.inj runs]
      exact running
    | postQuit | empty => cases steady
    | _ => cases central
  · exact (exec_aside central runs).quit.trans running

/-- There is a posted message as long as the goal is not reached. -/
theorem InFront.some_pending {goal count : ℕ} (front : InFront goal s nodes notes count) :
    pending s.world.queue ≠ [] := by
  intro none_pending
  have inside := front.inside
  rw [none_pending, List.length_nil] at inside
  exact absurd front.short (not_lt.mpr inside)

/-- **One step** of a steady run. -/
theorem InFront.step {goal count : ℕ} {event : Event} (front : InFront goal s nodes notes count)
    (steady : steady s event) (runs : exec s event = some after) :
    goal ≤ after.handedOut ∨ ∃ count', (∃ nodes' notes', InFront goal after nodes' notes' count') ∧
      event.takes + count' ≤ count + event.arrives := by
  rw [or_iff_not_imp_left, not_le]
  intro short
  have ring := ring_step front.ring runs
  have flags := flags_step front.flags runs
  have running := running_step front.running steady runs
  have inside := front.inside
  have counted := front.count
  by_cases pass : ∃ env args pMsg, event = .peek env args pMsg
  · obtain ⟨env, args, pMsg, rfl⟩ := pass
    obtain ⟨nodes', notes', list, holds, paid⟩ :=
      peek_pays front.list front.holds front.ring front.flags front.running runs
    have keeps := paid.keeps
    have pays := paid.pays front.some_pending
    have hands := paid.hands
    refine ⟨_, ⟨nodes', notes', list, holds, ring, flags, running, short, ?_, rfl⟩, ?_⟩
    · omega
    · have before := front.short
      omega
  · have other : ∀ env args pMsg, event ≠ .peek env args pMsg :=
      fun env args pMsg is => pass ⟨env, args, pMsg, is⟩
    obtain ⟨nodes', list, moves⟩ := front.list.step runs
      (by rintro _ _ _ _ rfl; exact steady) (by rintro _ rfl; exact steady)
    have senders := moves.length_le
    have notified : (notifyAfter s notes event).length ≤ notes.length + event.notifies :=
      notifyAfter_length_le event
    have grows := pending_grows front.ring steady other runs
    have same := handedOut_same other steady runs
    have takes : event.takes = 0 := by
      cases event with
      | peek env args pMsg => exact absurd rfl (other env args pMsg)
      | _ => rfl
    refine ⟨_, ⟨nodes', notifyAfter s notes event, list, notify_step front.holds runs, ring, flags,
      running, short, ?_, rfl⟩, ?_⟩
    · rw [same]
      exact inside.trans (Nat.add_le_add_left grows _)
    · unfold Event.arrives
      rw [takes, same]
      omega

/-- What was handed out stays handed out. -/
theorem handedOut_mono {event : Event} (steady : steady s event) (runs : exec s event = some after) :
    s.handedOut ≤ after.handedOut := by
  by_cases pass : ∃ env args pMsg, event = .peek env args pMsg
  · obtain ⟨env, args, pMsg, rfl⟩ := pass
    obtain ⟨outcome, afterPass, -, -, -, rfl⟩ := execPeek_inv runs
    rw [handedOut_hold]
    exact Nat.le_add_right _ _
  · exact (handedOut_same (fun env args pMsg is => pass ⟨env, args, pMsg, is⟩) steady runs).ge

/-- A steady run pays for what it takes. -/
theorem steady_pays (goal : ℕ) : System.Pays queueSystem steady
    (fun s count => ∃ nodes notes, InFront goal s nodes notes count) (fun s => goal ≤ s.handedOut)
    Event.takes Event.arrives := by
  rintro s event after count ⟨nodes, notes, front⟩ steady runs
  exact front.step steady runs

/-- **How many messages overtake a posted one.** In a queue whose throw-away calls found spaced lists,
from any state that is not quitting and in any steady run, a posted message with `k` others in front of
it in the ring is handed out by the time that as many passes took whatever was first as there were
senders, notifications and posted messages up to it, and came to be senders and notifications since. -/
theorem bounded_overtaking (reached : queueSystem.ReachableBy calm s)
    (running : s.world.queue.has .quit = false) :
    ∃ nodes notes, SyncLinked s nodes ∧ HoldsNotes s.world notes ∧
      ∀ k < (pending s.world.queue).length, ∀ events after,
        queueSystem.RunBy steady s events after →
        nodes.length + notes.length + (k + 1) + (events.map Event.arrives).sum ≤
          (events.map Event.takes).sum →
        s.handedOut + (k + 1) ≤ after.handedOut := by
  have any : queueSystem.Reachable s := reached.mono fun _ _ _ => trivial
  obtain ⟨nodes, list⟩ := syncLinked_of_calm reached
  obtain ⟨notes, holds⟩ := reachable_notify any
  refine ⟨nodes, notes, list, holds, fun k posted events after run passes => ?_⟩
  have start : InFront (s.handedOut + (k + 1)) s nodes notes
      (nodes.length + notes.length + (k + 1)) :=
    { list := list
      holds := holds
      ring := reachable_ring any
      flags := reachable_flags any
      running := running
      short := by omega
      inside := Nat.add_le_add_left posted _
      count := by omega }
  apply run.reaches (steady_pays (s.handedOut + (k + 1))) ?_ ⟨nodes, notes, start⟩ ?_ passes
  · intro s event after goal steady runs
    exact goal.trans (handedOut_mono steady runs)
  · rintro s n ⟨nodes, notes, front⟩
    have := front.count
    have := front.short
    omega

/-- A posted message behind a notification and a sender. -/
def postedBehind : List Event := .post 8 5 none 1 msgMouseMove 0 0 :: syncAndNote

theorem postedBehind_reached (runs : State.blank.run postedBehind = some s) :
    queueSystem.ReachableBy calm s := by
  refine System.ReachableBy.run_all (fun _ _ _ ran => ran) ?_ (.start blank_init) runs
  intro event member state
  simp only [postedBehind, syncAndNote, List.mem_cons, List.not_mem_nil, or_false] at member
  rcases member with rfl | rfl | rfl <;> trivial

theorem bounded_overtaking_behind : ∃ s, State.blank.run postedBehind = some s ∧
    ∃ nodes notes, SyncLinked s nodes ∧ HoldsNotes s.world notes ∧
      ∀ k < (pending s.world.queue).length, ∀ events after,
        queueSystem.RunBy steady s events after →
        nodes.length + notes.length + (k + 1) + (events.map Event.arrives).sum ≤
          (events.map Event.takes).sum →
        s.handedOut + (k + 1) ≤ after.handedOut :=
  ⟨_, rfl, bounded_overtaking
    (postedBehind_reached (rfl : State.blank.run postedBehind = some _)) rfl⟩

end Aple.Message
