/-
**SendSyncMessage returns with its node off the queue.**

The node of a call lives on the sender's stack, so it must be unreachable when the call returns.

* `sendSystem` — the queue with the calls of `SendSyncMessage` that have returned. `sem_wait` returns
  after a post, and with an error at any moment.
* `Detached` — nothing of the queue or of a dispatch points to the node; `Finished` — the message was
  dispatched to its end, or cancelled.
* `finishStep` — the condition on a run: `sem_wait` returns when the message is finished, throw-away
  calls find a spaced list, and the desktop timer finds no hidden pointer.
* `SendInv` — the invariant, and `SendInv.turn` — the moments within a loop that cancels.
* **`returns_detached_when_finished`** — in every state of every such run; `interrupted_sender_listed`
  is a run in which a signal ends the wait too early.
-/

import Aple.Message.DispatchOnce

namespace Aple.Message

open Aple.Lib

/-! ### The system -/

/-- The queue and the calls that have returned. -/
structure SendState where
  state : State
  returned : List Addr

/-- An event of the queue, or the return of the `sem_wait` of a call, with an error when it was
interrupted. -/
inductive SendEvent
  | queue (event : Event)
  | semWait (addr : Addr) (interrupted : Bool)

def execSend (s : SendState) : SendEvent → Option SendState
  | .queue event => (exec s.state event).map fun state => { s with state := state }
  | .semWait addr interrupted =>
    if addr ∈ s.state.enqueued ∧ addr ∉ s.returned ∧
        (interrupted = true ∨ (s.state.world.frames addr).semPosts ≠ 0) then
      some { s with returned := s.returned ++ [addr] }
    else none

def sendSystem : System SendState SendEvent where
  init s := queueSystem.init s.state ∧ s.returned = []
  step s event after := execSend s event = some after

/-! ### The property and the condition -/

/-- The node is not reachable from the head, not the tail of a list, and no message on hold points to
it. -/
structure Detached (frames : Frames) (first last : Ptr) (held : List (Source × Msg)) (addr : Addr) :
    Prop where
  unlisted : ¬ Visits frames.pNext first addr
  tail : first ≠ none → last ≠ some addr
  unheld : ∀ entry ∈ held, entry.2.pSyncMsg ≠ some addr

/-- The same of a state. -/
abbrev State.Detached (s : State) (addr : Addr) : Prop :=
  Message.Detached s.world.frames s.world.queue.pFirstSyncMsg s.world.queue.pLastSyncMsg s.held addr

/-- The message of the sender was dispatched to its end, or cancelled. -/
def Finished (s : State) (addr : Addr) : Prop :=
  Source.sync addr ∈ s.dispatched.map Prod.fst ∨ (s.world.frames addr).msg.hwnd = hwndInvalid

/-- The condition on an event of the queue. -/
def queueStep (s : State) : Event → Prop
  | .peek env args pMsg => ReachesDeskTimer env args s.world → leftover args ⟨s.world, pMsg⟩ = none
  | event => calm s event

/-- The condition on a step: the wait of a sender does not end before its message is finished. -/
def finishStep (s : SendState) : SendEvent → Prop
  | .queue event => queueStep s.state event
  | .semWait addr _ => Finished s.state addr

/-! ### The invariant -/

/-- The list, what is on hold, and that nobody on hold was posted. -/
structure SendInv (s : State) (nodes : List Addr) : Prop where
  list : SyncInv s nodes
  held : HeldOnce s
  unposted : ∀ addr pMsg, (Source.sync addr, pMsg) ∈ s.held → (s.world.frames addr).semPosts = 0

theorem State.taken_of_held {s : State} {addr : Addr} {pMsg : Msg}
    (onHold : (Source.sync addr, pMsg) ∈ s.held) : Source.sync addr ∈ s.takenOut :=
  List.mem_append_left _ (List.mem_map_of_mem (f := Prod.fst) onHold)

namespace SendInv

variable {s after : State} {nodes : List Addr} {addr : Addr}

/-- A sender on hold is off the list. -/
theorem off (inv : SendInv s nodes) {pMsg : Msg} (onHold : (Source.sync addr, pMsg) ∈ s.held) :
    addr ∉ nodes := fun listed =>
  inv.list.notTaken listed (State.taken_of_held onHold)

/-- Who is finished is neither listed nor on hold. -/
theorem not_finished (inv : SendInv s nodes) (member : addr ∈ s.enqueued) :
    ¬ Finished s addr ↔ addr ∈ nodes ∨ ∃ pMsg, (Source.sync addr, pMsg) ∈ s.held := by
  constructor
  · intro unfinished
    obtain ⟨undispatched, alive⟩ := not_or.mp unfinished
    by_cases taken : Source.sync addr ∈ s.takenOut
    · refine .inr ?_
      obtain ⟨entry, onHold, same⟩ :=
        List.mem_map.mp ((List.mem_append.mp taken).resolve_right undispatched)
      exact ⟨entry.2, by rw [← same]; exact onHold⟩
    · exact .inl (inv.list.mem_iff.mpr ⟨member, survives_iff.mpr ⟨taken, alive⟩⟩)
  · rintro (listed | ⟨pMsg, onHold⟩) (dispatched | cancelled)
    · obtain ⟨untaken, -⟩ := survives_iff.mp (inv.list.mem_iff.mp listed).2
      exact untaken (List.mem_append_right _ dispatched)
    · exact (survives_iff.mp (inv.list.mem_iff.mp listed).2).2 cancelled
    · -- it would have been taken out twice
      have once := inv.held.once addr
      unfold State.takenOut at once
      rw [List.count_append] at once
      have held : 0 < (s.held.map Prod.fst).count (Source.sync addr) :=
        List.count_pos_iff.mpr (List.mem_map_of_mem (f := Prod.fst) onHold)
      have also : 0 < (s.dispatched.map Prod.fst).count (Source.sync addr) :=
        List.count_pos_iff.mpr dispatched
      omega
    · exact (inv.list.taken addr (State.taken_of_held onHold)).2 cancelled

/-- A message on hold that points to a node is the message of its sender. -/
theorem held_of_hidden (inv : SendInv s nodes) {entry : Source × Msg} (member : entry ∈ s.held)
    (hidden : entry.2.pSyncMsg = some addr) : ∃ pMsg, (Source.sync addr, pMsg) ∈ s.held := by
  obtain ⟨source, pMsg⟩ := entry
  by_cases fromSync : ∃ other, source = .sync other
  · obtain ⟨other, rfl⟩ := fromSync
    obtain rfl : other = addr :=
      Option.some.inj ((inv.list.hidden other pMsg member).symm.trans hidden)
    exact ⟨pMsg, member⟩
  · have plain := inv.held.other source pMsg member fun other same => fromSync ⟨other, same⟩
    exact absurd (plain.symm.trans hidden) (by simp)

/-- **The node is detached** exactly when its message is finished. -/
theorem detached_iff (inv : SendInv s nodes) (member : addr ∈ s.enqueued) :
    s.Detached addr ↔ Finished s addr := by
  constructor
  · intro detached
    by_contra unfinished
    rcases (inv.not_finished member).mp unfinished with listed | ⟨pMsg, onHold⟩
    · exact detached.unlisted ((visits_iff inv.list.linked.chain).mpr listed)
    · exact detached.unheld _ onHold (inv.list.hidden addr pMsg onHold)
  · intro finished
    have off : ¬ (addr ∈ nodes ∨ ∃ pMsg, (Source.sync addr, pMsg) ∈ s.held) := fun busy =>
      (inv.not_finished member).mpr busy finished
    constructor
    case unlisted => exact fun visits => off (.inl ((visits_iff inv.list.linked.chain).mp visits))
    case tail =>
      intro some_first isTail
      have last := inv.list.linked.tail (inv.list.linked.first_none_iff.not.mp some_first)
      exact off (.inl (List.mem_of_mem_getLast? (last.symm.trans isTail)))
    case unheld => exact fun entry onHold hidden => off (.inr (inv.held_of_hidden onHold hidden))

/-- A sender that was posted is finished. -/
theorem finished_of_posted (inv : SendInv s nodes) (member : addr ∈ s.enqueued)
    (posted : (s.world.frames addr).semPosts ≠ 0) : Finished s addr := by
  by_contra unfinished
  rcases (inv.not_finished member).mp unfinished with listed | ⟨pMsg, onHold⟩
  · exact posted (inv.list.unposted addr listed)
  · exact posted (inv.unposted addr pMsg onHold)

end SendInv

/-! ### Within a loop that cancels -/

/-- The moments between the turns of the loop. -/
inductive CancelTurns (thrown : Hwnd → Bool) (w : World) : SyncVars → Prop
  | start : CancelTurns thrown w ⟨w.queue.pFirstSyncMsg, none, w.queue.pFirstSyncMsg, w.frames, 0⟩
  | turn {v v' : SyncVars} : CancelTurns thrown w v → cancelSyncTurn thrown v = some (.inl v') →
      CancelTurns thrown w v'

theorem CancelTurns.inv {thrown : Hwnd → Bool} {w : World} {v : SyncVars} {nodes : List Addr}
    (linked : Linked w.frames.pNext w.queue.pFirstSyncMsg w.queue.pLastSyncMsg nodes)
    (spaced : Spaced (fun addr => thrown (w.frames addr).msg.hwnd) nodes)
    (turns : CancelTurns thrown w v) : ∃ bound, CancelInv thrown w.frames nodes bound v := by
  induction turns with
  | start => exact ⟨_, cancelInv_start linked spaced⟩
  | turn _ again ih =>
    obtain ⟨bound, inv⟩ := ih
    obtain ⟨out, outcome, good⟩ := cancelSyncTurn_inv linked.nodup inv
    rw [again] at outcome
    rw [← Option.some.inj outcome] at good
    obtain ⟨bound', -, inv'⟩ := good
    exact ⟨bound', inv'⟩

/-- **Within the loop**, whoever was posted is detached. -/
theorem SendInv.turn {s : State} {nodes : List Addr} {addr : Addr} (inv : SendInv s nodes)
    {thrown : Hwnd → Bool} {v : SyncVars}
    (spaced : Spaced (fun addr => thrown (s.world.frames addr).msg.hwnd) nodes)
    (turns : CancelTurns thrown s.world v) (posted : (v.frames addr).semPosts ≠ 0) :
    Detached v.frames v.pFirst s.world.queue.pLastSyncMsg s.held addr := by
  obtain ⟨_, done, todo, split, -, chain, -, -, marks, -⟩ := turns.inv inv.list.linked spaced
  simp only at chain marks
  -- a frame that was not cancelled in the loop was posted before it
  have before : ¬ (addr ∈ done ∧ thrown (s.world.frames addr).msg.hwnd = true) →
      (s.world.frames addr).semPosts ≠ 0 := fun unmarked => by
    rw [← ((marks addr).2 unmarked).semPosts]
    exact posted
  have nodup := inv.list.linked.nodup
  rw [split] at nodup
  have off : addr ∉ (done.filter fun addr => !thrown (s.world.frames addr).msg.hwnd) ++ todo := by
    intro listed
    have inNodes : addr ∈ nodes := by
      rw [split]
      exact List.mem_append.mpr ((List.mem_append.mp listed).imp_left List.mem_of_mem_filter)
    refine before ?_ (inv.list.unposted addr inNodes)
    rintro ⟨isDone, hit⟩
    rcases List.mem_append.mp listed with kept | left
    · simp [hit] at kept
    · exact (List.nodup_append.mp nodup).2.2 addr isDone addr left rfl
  constructor
  case unlisted => exact fun visits => off ((visits_iff chain).mp visits)
  case tail =>
    intro some_first isTail
    refine off (List.mem_of_mem_getLast? ?_)
    have some_left : (done.filter fun addr => !thrown (s.world.frames addr).msg.hwnd) ++ todo ≠ [] := by
      intro empty
      rw [empty] at chain
      exact some_first chain
    have some_nodes : nodes ≠ [] := by
      rw [split]
      intro empty
      obtain ⟨rfl, rfl⟩ := List.append_eq_nil_iff.mp empty
      exact some_left rfl
    have sameLast : ((done.filter fun addr => !thrown (s.world.frames addr).msg.hwnd) ++ todo).getLast? =
        nodes.getLast? := by
      cases todo with
      | nil =>
        rw [List.append_nil] at split some_left ⊢
        rw [split] at spaced ⊢
        exact spaced.getLast? some_left
      | cons head rest =>
        rw [split, List.getLast?_append_cons, List.getLast?_append_cons]
    rw [sameLast, ← inv.list.linked.tail some_nodes]
    exact isTail
  case unheld =>
    intro entry onHold hidden
    obtain ⟨pMsg, own⟩ := inv.held_of_hidden onHold hidden
    refine before ?_ (inv.unposted addr pMsg own)
    rintro ⟨isDone, -⟩
    exact inv.off own (by rw [split]; exact List.mem_append_left _ isDone)

/-! ### Step by step -/

/-- What an event keeps: the invariant, and that finished calls are finished. -/
structure SendKept (s after : State) : Prop where
  inv : ∃ nodes, SendInv after nodes
  enqueued : ∀ addr ∈ s.enqueued, addr ∈ after.enqueued
  finished : ∀ addr ∈ s.enqueued, Finished s addr → Finished after addr

section Hold

variable {s : State} {outcome : Outcome} {remove : Bool} {pMsg : Msg}

@[simp] theorem State.dispatched_hold : (s.hold outcome remove pMsg).dispatched = s.dispatched := by
  unfold State.hold
  split
  · split <;> rfl
  · rfl

/-- A message from another source puts no sender on hold. -/
theorem State.held_of_hold (other : ∀ addr, outcome ≠ .got (.sync addr)) {addr : Addr} {msg : Msg}
    (member : (Source.sync addr, msg) ∈ (s.hold outcome remove pMsg).held) :
    (Source.sync addr, msg) ∈ s.held := by
  unfold State.hold at member
  split at member
  · split at member
    · refine (List.mem_append.mp member).resolve_right fun new => ?_
      obtain ⟨same, -⟩ := Prod.mk.inj (List.mem_singleton.mp new)
      exact other addr (by rw [same])
    · exact member
  · exact member

end Hold

theorem Finished.mono {s after : State} {addr : Addr} (finished : Finished s addr)
    (dispatched : ∀ entry ∈ s.dispatched, entry ∈ after.dispatched)
    (cancelled : (s.world.frames addr).msg.hwnd = hwndInvalid →
      (after.world.frames addr).msg.hwnd = hwndInvalid) : Finished after addr := by
  refine finished.imp (fun member => ?_) cancelled
  obtain ⟨entry, listed, same⟩ := List.mem_map.mp member
  exact List.mem_map.mpr ⟨entry, dispatched entry listed, same⟩

namespace SendInv

variable {s after : State} {nodes nodes' : List Addr}

/-- What leaves the frames alone and puts no other sender on hold. -/
theorem congr (inv : SendInv s nodes) (list : SyncInv after nodes') (held : HeldOnce after)
    (frames : after.world.frames = s.world.frames) (enqueued : after.enqueued = s.enqueued)
    (onHold : ∀ addr pMsg, (Source.sync addr, pMsg) ∈ after.held → (Source.sync addr, pMsg) ∈ s.held)
    (dispatched : ∀ entry ∈ s.dispatched, entry ∈ after.dispatched) : SendKept s after := by
  refine ⟨⟨nodes', list, held, fun addr pMsg member => ?_⟩,
    fun addr member => by rw [enqueued]; exact member,
    fun addr _ finished => finished.mono dispatched (by rw [frames]; exact id)⟩
  rw [frames]
  exact inv.unposted addr pMsg (onHold addr pMsg member)

/-- **Enqueuing.** -/
theorem send (inv : SendInv s nodes) {addr : Addr} {win : Windows} {time : Dword} {pad : Ptr}
    {hWnd : Hwnd} {msg : MsgId} {wParam : WParam} {lParam : LParam}
    (runs : execSendSync s addr win time pad hWnd msg wParam lParam = some after) :
    SendKept s after := by
  have list := inv.list.send runs
  obtain ⟨-, fresh, w, returns, rfl⟩ := execSendSync_inv runs
  obtain ⟨-, spared⟩ := sendSyncMessage_frames returns
  have old : ∀ other ∈ s.enqueued, Spared (s.world.frames other) (w.frames other) := fun other member =>
    spared other fun same => fresh (same ▸ member)
  refine ⟨⟨_, list, inv.held.congr rfl rfl, fun other pMsg onHold => ?_⟩,
    fun other member => List.mem_append_left _ member,
    fun other member finished => finished.mono (fun _ => id) fun cancelled => ?_⟩
  · have wasEnqueued := (inv.list.taken other (State.taken_of_held onHold)).1
    exact (old other wasEnqueued).semPosts.trans (inv.unposted other pMsg onHold)
  · show (w.frames other).msg.hwnd = hwndInvalid
    rw [(old other member).msg]
    exact cancelled

/-- **Handing out the head of the list.** -/
theorem take (inv : SendInv s nodes) {first : Addr} {w : World} {pMsg : Msg}
    (atHead : s.world.queue.pFirstSyncMsg = some first) (frames : w.frames = s.world.frames)
    (newFirst : w.queue.pFirstSyncMsg = s.world.frames.pNext first)
    (last : w.queue.pLastSyncMsg = s.world.queue.pLastSyncMsg) (hidden : pMsg.pSyncMsg = some first) :
    SendKept s { s.setWorld w with held := s.held ++ [(.sync first, pMsg)] } := by
  have listed := inv.list.head_mem atHead
  have notTaken := inv.list.notTaken listed
  refine ⟨⟨_, inv.list.take atHead frames newFirst last hidden, inv.held.take notTaken w pMsg,
    fun addr msg onHold => ?_⟩, fun _ => id,
    fun addr _ finished => finished.mono (fun _ => id) fun cancelled => ?_⟩
  · show (w.frames addr).semPosts = 0
    rw [frames]
    rcases List.mem_append.mp onHold with old | new
    · exact inv.unposted addr msg old
    · obtain ⟨same, -⟩ := Prod.mk.inj (List.mem_singleton.mp new)
      rw [Source.sync.inj same]
      exact inv.list.unposted first listed
  · show (w.frames addr).msg.hwnd = hwndInvalid
    rw [frames]
    exact cancelled

/-- **A pass of `PeekMessageEx`.** -/
theorem peek (inv : SendInv s nodes) {env : PeekEnv} {args : PeekArgs} {pMsg : Msg}
    (meets : queueStep s (.peek env args pMsg)) (runs : execPeek s env args pMsg = some after) :
    SendKept s after := by
  cases execPeek_sync runs with
  | took first w atHead same => exact inv.take atHead same.frames same.first same.last rfl
  | looked w same =>
    exact inv.congr (inv.list.setWorld same.frames same.first same.last) (inv.held.congr rfl rfl)
      same.frames rfl (fun _ _ => id) fun _ => id
  | elsewhere outcome afterPass effect other same =>
    have plain : ∀ source, outcome = .got source → afterPass.pMsg.pSyncMsg = none := by
      rintro source rfl
      exact peekPass_plain effect (fun addr same => other addr (by rw [same])) meets
    have moved : HeldOnce (s.setWorld afterPass.world) := inv.held.congr rfl rfl
    refine inv.congr ((inv.list.setWorld same.frames same.first same.last).hold other)
      (moved.hold other plain) ?_ ?_ ?_ ?_
    · rw [State.world_hold]
      exact same.frames
    · exact State.enqueued_hold ..
    · exact fun addr msg member =>
        (State.held_of_hold other member : _ ∈ (s.setWorld afterPass.world).held)
    · rw [State.dispatched_hold]
      exact fun _ => id

/-- **Dispatching** finishes the sender that it posts. -/
theorem dispatch (inv : SendInv s nodes) {index : ℕ} {procs : Procs} {result : LResult}
    (runs : execDispatch s index procs result = some after) : SendKept s after := by
  have list := inv.list.dispatch_held inv.held runs
  obtain ⟨source, pMsg, found, eq⟩ := execDispatch_inv runs
  have onHold := List.mem_of_getElem? found
  have held : after.held = s.held.eraseIdx index := by rw [eq]
  have dispatched : after.dispatched = s.dispatched ++ [(source, procResult procs result pMsg)] := by
    rw [eq]
  have heldOnce := inv.held.dispatch found held dispatched
  have heldBefore : ∀ entry ∈ after.held, entry ∈ s.held := by
    intro entry member
    rw [held] at member
    exact List.mem_of_mem_eraseIdx member
  have grows : ∀ entry ∈ s.dispatched, entry ∈ after.dispatched := by
    rw [dispatched]
    exact fun entry member => List.mem_append_left _ member
  by_cases fromSync : ∃ addr, source = .sync addr
  · obtain ⟨addr, rfl⟩ := fromSync
    have hidden := inv.list.hidden addr pMsg onHold
    obtain ⟨sameMsg, sameOther⟩ :
        (∀ other, (after.world.frames other).msg = (s.world.frames other).msg) ∧
        ∀ other, other ≠ addr → after.world.frames other = s.world.frames other := by
      rw [eq]
      rcases dispatchMessage_frames procs result pMsg s.world.frames with same | ⟨retval, completed⟩
      · rw [same]
        exact ⟨fun _ => rfl, fun _ _ => rfl⟩
      · rw [completed, hidden]
        exact (completeSync_some addr retval s.world.frames).2
    refine ⟨⟨nodes, list, heldOnce, fun other msg member => ?_⟩, fun other member => by rw [eq]; exact member,
      fun other _ finished => finished.mono grows (by rw [sameMsg]; exact id)⟩
    -- the sender that was dispatched is not on hold a second time
    have apart : other ≠ addr := by
      rintro rfl
      have once := heldOnce.once other
      unfold State.takenOut at once
      rw [List.count_append, dispatched, List.map_append, List.count_append, List.map_singleton,
        List.count_singleton_self] at once
      have still : 0 < (after.held.map Prod.fst).count (Source.sync other) :=
        List.count_pos_iff.mpr (List.mem_map_of_mem (f := Prod.fst) member)
      omega
    rw [sameOther other apart]
    exact inv.unposted other msg (heldBefore _ member)
  · have notSync : ∀ addr, source ≠ .sync addr := fun addr same => fromSync ⟨addr, same⟩
    have plain : (dispatchMessage procs result pMsg s.world.frames).2 = s.world.frames :=
      dispatchMessage_plain (inv.held.other source pMsg onHold notSync)
    exact inv.congr list heldOnce (by rw [eq, plain]) (by rw [eq]) (fun _ _ => heldBefore _) grows

/-- **Cancelling** finishes the senders that it posts. -/
theorem cancel (inv : SendInv s nodes) {w : World} {thrown : Hwnd → Bool} {fuel count : ℕ}
    (spaced : Spaced (fun addr => thrown (s.world.frames addr).msg.hwnd) nodes)
    (returns : cancelSync fuel thrown s.world = some (count, w)) : SendKept s (s.setWorld w) := by
  obtain ⟨-, marks⟩ := cancelSync_spec inv.list.linked spaced returns
  refine ⟨⟨_, inv.list.cancel spaced returns, inv.held.congr rfl rfl, fun addr pMsg onHold => ?_⟩,
    fun _ => id, fun addr _ finished => finished.mono (fun _ => id) fun cancelled => ?_⟩
  · have spared := (marks addr).2 fun marked => inv.off onHold marked.1
    exact spared.semPosts.trans (inv.unposted addr pMsg onHold)
  · show (w.frames addr).msg.hwnd = hwndInvalid
    by_cases marked : addr ∈ nodes ∧ thrown (s.world.frames addr).msg.hwnd = true
    · rw [((marks addr).1 marked).msg]
    · rw [((marks addr).2 marked).msg]
      exact cancelled

/-- The world may change as long as the list and the frames do not. -/
theorem setWorld (inv : SendInv s nodes) {w : World} (frames : w.frames = s.world.frames)
    (first : w.queue.pFirstSyncMsg = s.world.queue.pFirstSyncMsg)
    (last : w.queue.pLastSyncMsg = s.world.queue.pLastSyncMsg) : SendInv (s.setWorld w) nodes :=
  ⟨inv.list.setWorld frames first last, inv.held.congr rfl rfl, fun addr pMsg onHold => by
    show (w.frames addr).semPosts = 0
    rw [frames]
    exact inv.unposted addr pMsg onHold⟩

/-- The rest of a call that cancels changes neither the list nor the frames. -/
theorem cancelWithin (inv : SendInv s nodes) {before between w : World} {thrown : Hwnd → Bool}
    {fuel count : ℕ} (spaced : Spaced (fun addr => thrown (s.world.frames addr).msg.hwnd) nodes)
    (start : SyncSame s.world before) (returns : cancelSync fuel thrown before = some (count, between))
    (rest : SyncSame between w) : SendKept s (s.setWorld w) := by
  have moved : SendInv (s.setWorld before) nodes := inv.setWorld start.frames start.first start.last
  rw [← start.frames] at spaced
  obtain ⟨⟨nodes', cancelled⟩, -, finished⟩ := moved.cancel spaced returns
  refine ⟨⟨nodes', cancelled.setWorld rest.frames rest.first rest.last⟩, fun _ => id,
    fun addr member was => (finished addr member ?_).mono (fun _ => id) fun gone => ?_⟩
  · exact was.mono (fun _ => id) (by rw [← start.frames]; exact id)
  · show (w.frames addr).msg.hwnd = hwndInvalid
    rw [rest.frames]
    exact gone

/-- **One event that meets the condition.** -/
theorem step (inv : SendInv s nodes) {event : Event} (meets : queueStep s event)
    (runs : exec s event = some after) : SendKept s after := by
  by_cases other : leavesSync event = true
  · have kept := other_sync other runs
    exact inv.congr (inv.list.same kept) (inv.held.congr kept.held kept.dispatched) kept.world.frames
      kept.enqueued (by rw [kept.held]; exact fun _ _ => id) (by rw [kept.dispatched]; exact fun _ => id)
  cases event with
  | sendSync addr win time pad hWnd msg wParam lParam => exact inv.send runs
  | drain =>
    cases execDrain_effect runs with
    | idle =>
      exact ⟨⟨nodes, inv⟩, fun _ => id, fun _ _ => id⟩
    | took first _ atHead => exact inv.take (w := unlinkFirstSync first s.world) atHead rfl rfl rfl rfl
    | cleared => exact ⟨⟨nodes, inv.setWorld rfl rfl rfl⟩, fun _ => id, fun _ _ => id⟩
  | peek env args pMsg => exact inv.peek meets runs
  | dispatch index procs result => exact inv.dispatch runs
  | throwAway fuel defNrTimers win hWnd =>
    obtain ⟨-, count, w, returns, rfl⟩ := execThrowAway_inv runs
    obtain ⟨_, notified, _, synced, _, posted, _, first, second, third, -, rfl⟩ :=
      mgThrowAwayMessages_inv returns
    obtain ⟨_, _, _, -, eq⟩ := throwNotify_frame first
    obtain ⟨_, _, -, rfl⟩ := throwPosted_frame third
    exact inv.cancelWithin (meets nodes inv.list.linked.chain)
      ⟨by rw [eq], by rw [eq], by rw [eq]⟩ second ⟨rfl, rfl, rfl⟩
  | empty fuel =>
    obtain ⟨w, returns, rfl⟩ := Option.map_eq_some_iff.mp runs
    obtain ⟨_, synced, heap, first, -, rfl⟩ := emptyMessageQueue_inv returns
    exact inv.cancelWithin (spaced_all nodes) ⟨rfl, rfl, rfl⟩ first ⟨rfl, rfl, rfl⟩
  | _ => exact absurd rfl other

end SendInv

/-! ### Every run -/

/-- The queue is right, and the calls that returned are finished. -/
structure SendOk (s : SendState) : Prop where
  inv : ∃ nodes, SendInv s.state nodes
  enqueued : ∀ addr ∈ s.returned, addr ∈ s.state.enqueued
  finished : ∀ addr ∈ s.returned, Finished s.state addr

theorem reachable_send {s : SendState} (reached : sendSystem.ReachableBy finishStep s) : SendOk s := by
  refine reached.invariant SendOk ?_ ?_
  · rintro ⟨_, _⟩ ⟨⟨defMsgqueueLen, iBufferLen, buffer, frames, -, rfl⟩, rfl⟩
    refine ⟨⟨[], initial_syncInv defMsgqueueLen iBufferLen buffer frames, ⟨?_, ?_⟩, ?_⟩, ?_, ?_⟩
    · exact fun _ _ member => absurd member List.not_mem_nil
    · exact fun _ => Nat.zero_le _
    · exact fun _ _ member => absurd member List.not_mem_nil
    · exact fun _ member => absurd member List.not_mem_nil
    · exact fun _ member => absurd member List.not_mem_nil
  · rintro s event after - ⟨⟨nodes, inv⟩, enqueued, finished⟩ meets runs
    cases event with
    | queue event =>
      obtain ⟨state, returns, rfl⟩ := Option.map_eq_some_iff.mp runs
      have kept := inv.step meets returns
      exact ⟨kept.inv, fun addr member => kept.enqueued addr (enqueued addr member),
        fun addr member => kept.finished addr (enqueued addr member) (finished addr member)⟩
    | semWait addr interrupted =>
      have runs : (if _ then _ else _) = some after := runs
      split at runs
      · rename_i waits
        obtain rfl := Option.some.inj runs
        refine ⟨⟨nodes, inv⟩, fun other member => ?_, fun other member => ?_⟩
        · rcases List.mem_append.mp member with old | new
          · exact enqueued other old
          · rw [List.mem_singleton.mp new]
            exact waits.1
        · rcases List.mem_append.mp member with old | new
          · exact finished other old
          · rw [List.mem_singleton.mp new]
            exact meets
      · cases runs

/-- What holds of the senders' nodes. -/
structure ReturnsDetached (s : SendState) : Prop where
  detached : ∀ addr ∈ s.returned, s.state.Detached addr
  /-- A return after a post meets the condition. -/
  posted : ∀ addr ∈ s.state.enqueued, (s.state.world.frames addr).semPosts ≠ 0 →
    Finished s.state addr
  /-- One that does not meet it leaves a node behind. -/
  exact : ∀ addr ∈ s.state.enqueued, s.state.Detached addr ↔ Finished s.state addr
  /-- Also between the turns of a loop that cancels. -/
  within : ∀ thrown v nodes, IsList s.state.world.frames.pNext s.state.world.queue.pFirstSyncMsg nodes →
    Spaced (fun addr => thrown (s.state.world.frames addr).msg.hwnd) nodes →
    CancelTurns thrown s.state.world v → ∀ addr, (v.frames addr).semPosts ≠ 0 →
    Detached v.frames v.pFirst s.state.world.queue.pLastSyncMsg s.state.held addr

/-- **`SendSyncMessage` returns with its node off the queue**, in every state of every run that meets
the condition. -/
theorem returns_detached_when_finished {s : SendState}
    (reached : sendSystem.ReachableBy finishStep s) : ReturnsDetached s := by
  obtain ⟨⟨nodes, inv⟩, enqueued, finished⟩ := reachable_send reached
  constructor
  case detached =>
    exact fun addr member => (inv.detached_iff (enqueued addr member)).mpr (finished addr member)
  case posted => exact fun addr member posted => inv.finished_of_posted member posted
  case exact => exact fun addr member => inv.detached_iff member
  case within =>
    intro thrown v nodes' chain spaced turns addr posted
    obtain rfl := isList_unique inv.list.linked.chain chain
    exact inv.turn spaced turns posted

/-- One message is sent, taken out and dispatched, and its sender returns. -/
def servedSender : List SendEvent :=
  [.queue (.sendSync 7 mainWin 0 none 10 5 0 0),
    .queue (.peek desktopEnv ⟨1, 0, 0, pmRemove⟩ Msg.zero),
    .queue (.dispatch 0 ⟨fun _ => true, fun _ => false⟩ 42), .semWait 7 false]

theorem returns_detached_when_finished_one :
    ∃ s, runEvents execSend ⟨State.blank, []⟩ servedSender = some s ∧ s.returned = [7] ∧
      ReturnsDetached s := by
  have start : sendSystem.ReachableBy finishStep ⟨State.blank, []⟩ := .start ⟨blank_init, rfl⟩
  have sent := start.by_event (SendEvent.queue (.sendSync 7 mainWin 0 none 10 5 0 0)) trivial rfl
  have taken := sent.by_event
    (SendEvent.queue (.peek desktopEnv ⟨1, 0, 0, pmRemove⟩ Msg.zero))
    (fun reaches => absurd reaches.due (by decide)) rfl
  have served := taken.by_event
    (SendEvent.queue (.dispatch 0 ⟨fun _ => true, fun _ => false⟩ 42)) trivial rfl
  exact ⟨_, rfl, rfl, returns_detached_when_finished
    (served.by_event (SendEvent.semWait 7 false) (.inl (by decide)) rfl)⟩

/-- **An interrupted sender returns while its node is the head of the list.** -/
theorem interrupted_sender_listed : ∃ s, runEvents execSend ⟨State.blank, []⟩
    [.queue (.sendSync 7 mainWin 0 none 10 5 0 0), .semWait 7 true] = some s ∧
      s.returned = [7] ∧ s.state.world.queue.pFirstSyncMsg = some 7 ∧ ¬ s.state.Detached 7 :=
  ⟨_, rfl, rfl, rfl, fun detached => detached.unlisted ⟨[], rfl⟩⟩

end Aple.Message
