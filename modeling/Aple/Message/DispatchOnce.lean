/-
**A synchronous message completes exactly once.**

* `dispatchStep` — the condition on a run: no sender is cancelled, a message is sent to a window
  with a procedure, and a pass that gets as far as the desktop timer has no hidden pointer left over
  from a message its filter rejected.
* `CompletedOnce` — a sender is posted once for its own dispatch and never for another, after it was
  unlinked and with the result of the procedure.
* `Completion` — the invariant behind it, next to `SyncInv`.
* **`completed_once_when_clean`** — it holds in every state of every such run; `stale_completion` is
  a run in which the desktop timer completes a sender that still waits.
-/

import Aple.Message.SyncList

namespace Aple.Message

open Aple.Lib

/-! ### The condition -/

/-- The state a pass is in when it gets as far as the desktop timer, which is due. -/
structure ReachesDeskTimer (env : PeekEnv) (args : PeekArgs) (w : World) : Prop where
  running : w.queue.has .quit = false
  sync : SkipsSync args w
  notify : SkipsNotify args w
  posted : SkipsPosted args w
  desktop : env.isDskQueue = true
  due : w.queue.has .deskTimer = true

/-- Every message taken out goes to a window with a procedure, the desktop timer finds no hidden
pointer, and no sender is cancelled. -/
def dispatchStep (s : State) : Event → Prop
  | .peek env args pMsg => ReachesDeskTimer env args s.world → leftover args ⟨s.world, pMsg⟩ = none
  | .dispatch index procs _ => ∀ addr pMsg, s.held[index]? = some (Source.sync addr, pMsg) →
    procs.hasWndProc pMsg.hwnd = true
  | .throwAway .. => False
  | .empty .. => False
  | _ => True

/-! ### The property -/

/-- How often the own message of a sender was dispatched. -/
def State.dispatches (s : State) (addr : Addr) : ℕ :=
  (s.dispatched.map Prod.fst).count (Source.sync addr)

/-- A sender is completed by the dispatch of its own message and by nothing else. -/
structure CompletedOnce (s : State) : Prop where
  /-- As many posts as dispatches of its own message, and one at most. -/
  posts : ∀ addr ∈ s.enqueued, (s.world.frames addr).semPosts = s.dispatches addr ∧
    s.dispatches addr ≤ 1
  /-- A posted sender is off the list. -/
  unlinked : ∀ addr ∈ s.enqueued, (s.world.frames addr).semPosts ≠ 0 →
    ∀ nodes, IsList s.world.frames.pNext s.world.queue.pFirstSyncMsg nodes → addr ∉ nodes
  /-- Its result is what the procedure returned. -/
  result : ∀ addr retval, (Source.sync addr, retval) ∈ s.dispatched →
    (s.world.frames addr).retval = retval
  /-- Dispatching its own message posts it, with the result of the procedure. -/
  own : ∀ (index : ℕ) addr pMsg procs result, s.held[index]? = some (Source.sync addr, pMsg) →
    procs.hasWndProc pMsg.hwnd = true →
    (dispatchMessage procs result pMsg s.world.frames).2 =
      (s.world.frames.setRetval addr (procResult procs result pMsg)).semPost addr ∧
    (s.world.frames addr).semPosts = 0
  /-- Dispatching a message from any other source writes no frame. -/
  others : ∀ (index : ℕ) source pMsg procs result, s.held[index]? = some (source, pMsg) →
    (∀ addr, source ≠ Source.sync addr) →
    (dispatchMessage procs result pMsg s.world.frames).2 = s.world.frames

/-! ### What is on hold -/

/-- A sender is taken out once at most, and no other message on hold has a hidden pointer. -/
structure HeldOnce (s : State) : Prop where
  other : ∀ source pMsg, (source, pMsg) ∈ s.held → (∀ addr, source ≠ Source.sync addr) →
    pMsg.pSyncMsg = none
  once : ∀ addr, s.takenOut.count (Source.sync addr) ≤ 1

namespace HeldOnce

variable {s after : State}

theorem congr (inv : HeldOnce s) (held : after.held = s.held)
    (dispatched : after.dispatched = s.dispatched) : HeldOnce after := by
  have sameTaken : after.takenOut = s.takenOut := by
    unfold State.takenOut
    rw [held, dispatched]
  constructor
  case other =>
    rw [held]
    exact inv.other
  case once =>
    rw [sameTaken]
    exact inv.once

/-- Handing out a sender that was not taken out before. -/
theorem take (inv : HeldOnce s) {first : Addr} (notTaken : Source.sync first ∉ s.takenOut) (w : World)
    (pMsg : Msg) : HeldOnce { s.setWorld w with held := s.held ++ [(.sync first, pMsg)] } := by
  constructor
  case other =>
    intro source msg member elsewhere
    rcases List.mem_append.mp member with old | new
    · exact inv.other source msg old elsewhere
    · obtain ⟨same, -⟩ := Prod.mk.inj (List.mem_singleton.mp new)
      exact absurd same (elsewhere first)
  case once =>
    intro addr
    have before := inv.once addr
    unfold State.takenOut at before ⊢
    rw [List.count_append] at before
    rw [List.map_append, List.count_append, List.count_append, List.map_singleton,
      List.count_singleton]
    by_cases same : addr = first
    · subst same
      have none_before : s.takenOut.count (Source.sync addr) = 0 := List.count_eq_zero.mpr notTaken
      unfold State.takenOut at none_before
      rw [List.count_append] at none_before
      simp only [State.setWorld, beq_self_eq_true, if_true]
      omega
    · have differs : (Source.sync first == Source.sync addr) = false := by
        simpa using fun eq : first = addr => same eq.symm
      rw [differs]
      simpa [State.setWorld] using before

/-- Handing out a message from another source, without a hidden pointer. -/
theorem hold (inv : HeldOnce s) {outcome : Outcome} {remove : Bool} {pMsg : Msg}
    (other : ∀ addr, outcome ≠ .got (.sync addr))
    (plain : ∀ source, outcome = .got source → pMsg.pSyncMsg = none) :
    HeldOnce (s.hold outcome remove pMsg) := by
  unfold State.hold
  split
  · rename_i source
    split
    · have notSync : ∀ addr, source ≠ .sync addr := fun addr same => other addr (by rw [same])
      refine ⟨fun source' msg member elsewhere => ?_, fun addr => ?_⟩
      · rcases List.mem_append.mp member with old | new
        · exact inv.other source' msg old elsewhere
        · obtain ⟨-, rfl⟩ := Prod.mk.inj (List.mem_singleton.mp new)
          exact plain source rfl
      · have before := inv.once addr
        unfold State.takenOut at before ⊢
        rw [List.count_append] at before
        rw [List.map_append, List.count_append, List.count_append, List.map_singleton,
          List.count_singleton]
        have differs : (source == Source.sync addr) = false := by simpa using notSync addr
        rw [differs]
        simpa using before
    · exact inv
  · exact inv

/-- Dispatching takes an entry from what is on hold. -/
theorem dispatch (inv : HeldOnce s) {index : ℕ} {source : Source} {pMsg : Msg} {lRet : LResult}
    (found : s.held[index]? = some (source, pMsg)) (held : after.held = s.held.eraseIdx index)
    (dispatched : after.dispatched = s.dispatched ++ [(source, lRet)]) : HeldOnce after := by
  constructor
  case other =>
    intro source' msg member elsewhere
    rw [held] at member
    exact inv.other source' msg (List.mem_of_mem_eraseIdx member) elsewhere
  case once =>
    intro addr
    rw [(takenOut_dispatch found held dispatched).count_eq]
    exact inv.once addr

end HeldOnce

/-! ### The invariant -/

/-- What the history says about the frames. -/
structure Completion (s : State) : Prop where
  valid : ∀ addr ∈ s.enqueued, (s.world.frames addr).msg.hwnd ≠ hwndInvalid ∧
    (s.world.frames addr).msg.hwnd ≠ hwndNull
  heldSync : ∀ addr pMsg, (Source.sync addr, pMsg) ∈ s.held →
    pMsg.hwnd = (s.world.frames addr).msg.hwnd
  heldOther : ∀ source pMsg, (source, pMsg) ∈ s.held → (∀ addr, source ≠ Source.sync addr) →
    pMsg.pSyncMsg = none
  once : ∀ addr, s.takenOut.count (Source.sync addr) ≤ 1
  posts : ∀ addr ∈ s.enqueued, (s.world.frames addr).semPosts = s.dispatches addr
  result : ∀ addr retval, (Source.sync addr, retval) ∈ s.dispatched →
    (s.world.frames addr).retval = retval

/-- A message without a hidden pointer completes nobody. -/
theorem dispatchMessage_plain {procs : Procs} {result : LResult} {pMsg : Msg} {frames : Frames}
    (plain : pMsg.pSyncMsg = none) : (dispatchMessage procs result pMsg frames).2 = frames := by
  rcases dispatchMessage_frames procs result pMsg frames with same | ⟨retval, completed⟩
  · exact same
  · rw [completed, plain]
    rfl

/-- **Dispatching** keeps the list: a message that is not a sender's completes nobody. -/
theorem SyncInv.dispatch_held {s after : State} {nodes : List Addr} (list : SyncInv s nodes)
    (inv : HeldOnce s) {index : ℕ} {procs : Procs} {result : LResult}
    (runs : execDispatch s index procs result = some after) : SyncInv after nodes := by
  obtain ⟨source, pMsg, found, eq⟩ := execDispatch_inv runs
  by_cases fromSync : ∃ addr, source = .sync addr
  · obtain ⟨addr, rfl⟩ := fromSync
    exact list.dispatch found runs
  · have notSync : ∀ addr, source ≠ .sync addr := fun addr same => fromSync ⟨addr, same⟩
    rw [dispatchMessage_plain (inv.other source pMsg (List.mem_of_getElem? found) notSync)] at eq
    have held : after.held = s.held.eraseIdx index := by rw [eq]
    have taken : after.takenOut.Perm s.takenOut := takenOut_dispatch found held (by rw [eq])
    refine list.congr (by rw [eq]) (by rw [eq]) (by rw [eq]) (by rw [eq]) (fun addr => taken.mem_iff)
      fun addr msg member => ?_
    rw [held] at member
    exact List.mem_of_mem_eraseIdx member

/-- A message to a window with a procedure completes the sender it points to. -/
theorem dispatchMessage_sync {procs : Procs} {result : LResult} {pMsg : Msg} {frames : Frames}
    {addr : Addr} (hidden : pMsg.pSyncMsg = some addr) (notInvalid : pMsg.hwnd ≠ hwndInvalid)
    (notNull : pMsg.hwnd ≠ hwndNull) (procedure : procs.hasWndProc pMsg.hwnd = true) :
    (dispatchMessage procs result pMsg frames).2 =
      (frames.setRetval addr (procResult procs result pMsg)).semPost addr := by
  unfold dispatchMessage
  rw [if_neg notInvalid, if_neg notNull, if_neg (by simp [procedure]), hidden]
  rfl

/-- A sender on hold was not dispatched. -/
theorem Completion.undispatched {s : State} (inv : Completion s) {addr : Addr} {pMsg : Msg}
    (onHold : (Source.sync addr, pMsg) ∈ s.held) : s.dispatches addr = 0 := by
  have once := inv.once addr
  unfold State.takenOut at once
  rw [List.count_append] at once
  have held : 0 < (s.held.map Prod.fst).count (Source.sync addr) :=
    List.count_pos_iff.mpr (List.mem_map_of_mem (f := Prod.fst) onHold)
  have none_left : (s.dispatched.map Prod.fst).count (Source.sync addr) = 0 := by omega
  exact none_left

theorem Completion.heldOnce {s : State} (inv : Completion s) : HeldOnce s := ⟨inv.heldOther, inv.once⟩

theorem completedOnce {s : State} {nodes : List Addr} (list : SyncInv s nodes)
    (inv : Completion s) : CompletedOnce s := by
  have taken : ∀ addr pMsg, (Source.sync addr, pMsg) ∈ s.held → addr ∈ s.enqueued :=
    fun addr pMsg onHold => (list.taken addr
      (List.mem_append_left _ (List.mem_map_of_mem (f := Prod.fst) onHold))).1
  constructor
  case posts =>
    intro addr member
    refine ⟨inv.posts addr member, ?_⟩
    have once := inv.once addr
    unfold State.takenOut at once
    rw [List.count_append] at once
    exact Nat.le_trans (Nat.le_add_left _ _) once
  case unlinked =>
    intro addr _ posted nodes' chain listed
    rw [← isList_unique list.linked.chain chain] at listed
    exact posted (list.unposted addr listed)
  case result => exact inv.result
  case own =>
    intro index addr pMsg procs result found procedure
    have onHold := List.mem_of_getElem? found
    have wasEnqueued := taken addr pMsg onHold
    obtain ⟨notInvalid, notNull⟩ := inv.valid addr wasEnqueued
    rw [← inv.heldSync addr pMsg onHold] at notInvalid notNull
    refine ⟨dispatchMessage_sync (list.hidden addr pMsg onHold) notInvalid notNull procedure, ?_⟩
    rw [inv.posts addr wasEnqueued, inv.undispatched onHold]
  case others =>
    intro index source pMsg procs result found other
    exact dispatchMessage_plain (inv.heldOther source pMsg (List.mem_of_getElem? found) other)

namespace Completion

variable {s after : State} {nodes : List Addr}

/-- What leaves the history alone and spares the frames keeps the invariant. -/
theorem congr (inv : Completion s)
    (spared : ∀ addr ∈ s.enqueued, Spared (s.world.frames addr) (after.world.frames addr))
    (list : SyncInv s nodes) (enqueued : after.enqueued = s.enqueued) (held : after.held = s.held)
    (dispatched : after.dispatched = s.dispatched) : Completion after := by
  have onHold := inv.heldOnce.congr held dispatched
  have sameCount : after.dispatches = s.dispatches := by
    funext addr
    unfold State.dispatches
    rw [dispatched]
  have takenIn : ∀ addr, .sync addr ∈ s.takenOut → addr ∈ s.enqueued := fun addr member =>
    (list.taken addr member).1
  constructor
  case valid =>
    intro addr member
    rw [enqueued] at member
    rw [(spared addr member).msg]
    exact inv.valid addr member
  case heldSync =>
    intro addr pMsg member
    rw [held] at member
    have old := takenIn addr
      (List.mem_append_left _ (List.mem_map_of_mem (f := Prod.fst) member))
    rw [(spared addr old).msg]
    exact inv.heldSync addr pMsg member
  case heldOther => exact onHold.other
  case once => exact onHold.once
  case posts =>
    intro addr member
    rw [enqueued] at member
    rw [(spared addr member).semPosts, sameCount]
    exact inv.posts addr member
  case result =>
    intro addr retval member
    rw [dispatched] at member
    have old := takenIn addr
      (List.mem_append_right _ (List.mem_map_of_mem (f := Prod.fst) member))
    rw [(spared addr old).retval]
    exact inv.result addr retval member

/-- **Enqueuing.** -/
theorem send (inv : Completion s) (list : SyncInv s nodes) {addr : Addr} {win : Windows}
    {time : Dword} {pad : Ptr} {hWnd : Hwnd} {msg : MsgId} {wParam : WParam} {lParam : LParam}
    (runs : execSendSync s addr win time pad hWnd msg wParam lParam = some after) :
    Completion after := by
  obtain ⟨window, fresh, w, returns, rfl⟩ := execSendSync_inv runs
  obtain ⟨filled, spared⟩ := sendSyncMessage_frames returns
  have kept : Completion (s.setWorld w) := by
    refine inv.congr (fun other member => spared other ?_) list rfl rfl rfl
    rintro rfl
    exact fresh member
  simp only [isWindow, Bool.and_eq_true, bne_iff_ne] at window
  obtain ⟨⟨notNull, notInvalid⟩, -⟩ := window
  have notTaken : .sync addr ∉ s.takenOut := fun member => fresh (list.taken addr member).1
  have notDispatched : s.dispatches addr = 0 :=
    List.count_eq_zero.mpr fun member => notTaken (List.mem_append_right _ member)
  constructor
  case valid =>
    intro other member
    rcases List.mem_append.mp member with old | new
    · exact kept.valid other old
    · rw [List.mem_singleton.mp new]
      show (w.frames addr).msg.hwnd ≠ hwndInvalid ∧ (w.frames addr).msg.hwnd ≠ hwndNull
      rw [filled.msg]
      exact ⟨notInvalid, notNull⟩
  case heldSync => exact kept.heldSync
  case heldOther => exact kept.heldOther
  case once => exact kept.once
  case posts =>
    intro other member
    rcases List.mem_append.mp member with old | new
    · exact kept.posts other old
    · rw [List.mem_singleton.mp new]
      show (w.frames addr).semPosts = s.dispatches addr
      rw [filled.semPosts, notDispatched]
      rfl
  case result => exact kept.result

/-- Another world with the same frames. -/
theorem setWorld (inv : Completion s) (list : SyncInv s nodes) {w : World}
    (frames : w.frames = s.world.frames) : Completion (s.setWorld w) := by
  refine inv.congr (fun addr _ => ?_) list rfl rfl rfl
  show Spared (s.world.frames addr) (w.frames addr)
  rw [frames]
  exact .refl _

/-- **Handing out the head of the list**, which was not taken out before. -/
theorem take (inv : Completion s) (list : SyncInv s nodes) {first : Addr} {w : World}
    (atHead : s.world.queue.pFirstSyncMsg = some first) (frames : w.frames = s.world.frames)
    {pMsg : Msg} (returned : pMsg = { (s.world.frames first).msg with pSyncMsg := some first }) :
    Completion { s.setWorld w with held := s.held ++ [(.sync first, pMsg)] } := by
  have kept := inv.setWorld list frames
  have onHold := inv.heldOnce.take (list.notTaken (list.head_mem atHead)) w pMsg
  constructor
  case valid => exact kept.valid
  case heldSync =>
    intro addr msg member
    rcases List.mem_append.mp member with old | new
    · exact kept.heldSync addr msg old
    · obtain ⟨same, rfl⟩ := Prod.mk.inj (List.mem_singleton.mp new)
      rw [Source.sync.inj same, returned]
      show (s.world.frames first).msg.hwnd = (w.frames first).msg.hwnd
      rw [frames]
  case heldOther => exact onHold.other
  case once => exact onHold.once
  case posts => exact kept.posts
  case result => exact kept.result

/-- **Handing out a message from another source**, without a hidden pointer. -/
theorem hold (inv : Completion s) {outcome : Outcome} {remove : Bool} {pMsg : Msg}
    (other : ∀ addr, outcome ≠ .got (.sync addr))
    (plain : ∀ source, outcome = .got source → pMsg.pSyncMsg = none) :
    Completion (s.hold outcome remove pMsg) := by
  have onHold : HeldOnce (s.hold outcome remove pMsg) := inv.heldOnce.hold other plain
  unfold State.hold at onHold ⊢
  split
  · rename_i source
    split
    · have notSync : ∀ addr, source ≠ .sync addr := fun addr same => other addr (by rw [same])
      simp only [if_pos ‹remove = true›] at onHold
      refine ⟨inv.valid, fun addr msg member => ?_, onHold.other, onHold.once, inv.posts, inv.result⟩
      rcases List.mem_append.mp member with old | new
      · exact inv.heldSync addr msg old
      · obtain ⟨same, -⟩ := Prod.mk.inj (List.mem_singleton.mp new)
        exact absurd same.symm (notSync addr)
    · exact inv
  · exact inv

/-- One more dispatch in the history. -/
theorem dispatches_append {source : Source} {retval : LResult}
    (dispatched : after.dispatched = s.dispatched ++ [(source, retval)]) (addr : Addr) :
    after.dispatches addr = s.dispatches addr + if source = .sync addr then 1 else 0 := by
  unfold State.dispatches
  rw [dispatched, List.map_append, List.count_append, List.map_singleton, List.count_singleton]
  by_cases same : source = .sync addr
  · simp [same]
  · simp [same]

/-- The dispatch of a sender's message completes that sender. -/
theorem dispatch_sender (inv : Completion s) (rest : HeldOnce after) {addr : Addr} {pMsg : Msg}
    {retval : LResult} (onHold : (Source.sync addr, pMsg) ∈ s.held)
    (held : ∀ entry ∈ after.held, entry ∈ s.held) (enqueued : after.enqueued = s.enqueued)
    (completes : after.world.frames = (s.world.frames.setRetval addr retval).semPost addr)
    (dispatched : after.dispatched = s.dispatched ++ [(.sync addr, retval)]) : Completion after := by
  have atOther : ∀ other, other ≠ addr → after.world.frames other = s.world.frames other := by
    intro other differs
    rw [completes]
    simp [Frames.semPost, Frames.setRetval, differs]
  have atSelf : after.world.frames addr = { s.world.frames addr with
      retval := retval
      semPosts := (s.world.frames addr).semPosts + 1 } := by
    rw [completes]
    simp [Frames.semPost, Frames.setRetval]
  have sameMsg : ∀ other, (after.world.frames other).msg = (s.world.frames other).msg := by
    intro other
    by_cases same : other = addr
    · rw [same, atSelf]
    · rw [atOther other same]
  constructor
  case valid =>
    intro other member
    rw [enqueued] at member
    rw [sameMsg]
    exact inv.valid other member
  case heldSync =>
    intro other msg member
    rw [sameMsg]
    exact inv.heldSync other msg (held _ member)
  case heldOther => exact rest.other
  case once => exact rest.once
  case posts =>
    intro other member
    rw [enqueued] at member
    rw [dispatches_append dispatched, ← inv.posts other member]
    by_cases same : other = addr
    · rw [same, atSelf, if_pos rfl]
    · rw [atOther other same, if_neg fun too => same (Source.sync.inj too).symm, Nat.add_zero]
  case result =>
    intro other retval' member
    rw [dispatched] at member
    rcases List.mem_append.mp member with old | new
    · -- a sender whose message was on hold has no earlier dispatch
      have differs : other ≠ addr := by
        rintro rfl
        have counted : 0 < s.dispatches other :=
          List.count_pos_iff.mpr (List.mem_map_of_mem (f := Prod.fst) old)
        rw [inv.undispatched onHold] at counted
        exact Nat.lt_irrefl _ counted
      rw [atOther other differs]
      exact inv.result other retval' old
    · obtain ⟨same, rfl⟩ := Prod.mk.inj (List.mem_singleton.mp new)
      rw [Source.sync.inj same, atSelf]

/-- The dispatch of any other message completes nobody. -/
theorem dispatch_other (inv : Completion s) (rest : HeldOnce after) {source : Source}
    {retval : LResult} (notSync : ∀ addr, source ≠ .sync addr)
    (held : ∀ entry ∈ after.held, entry ∈ s.held) (enqueued : after.enqueued = s.enqueued)
    (frames : after.world.frames = s.world.frames)
    (dispatched : after.dispatched = s.dispatched ++ [(source, retval)]) : Completion after := by
  constructor
  case valid => rw [frames, enqueued]; exact inv.valid
  case heldSync =>
    intro addr msg member
    rw [frames]
    exact inv.heldSync addr msg (held _ member)
  case heldOther => exact rest.other
  case once => exact rest.once
  case posts =>
    intro addr member
    rw [enqueued] at member
    rw [frames, dispatches_append dispatched, if_neg (notSync addr)]
    exact inv.posts addr member
  case result =>
    intro addr retval' member
    rw [dispatched] at member
    rw [frames]
    refine inv.result addr retval' ((List.mem_append.mp member).resolve_right fun new => ?_)
    obtain ⟨same, -⟩ := Prod.mk.inj (List.mem_singleton.mp new)
    exact notSync addr same.symm

/-- **Dispatching.** The message of a sender completes that sender, any other message nobody. -/
theorem dispatch (inv : Completion s) (list : SyncInv s nodes) {index : ℕ} {procs : Procs}
    {result : LResult} (meets : dispatchStep s (.dispatch index procs result))
    (runs : execDispatch s index procs result = some after) :
    Completion after ∧ SyncInv after nodes := by
  have clean := completedOnce list inv
  obtain ⟨source, pMsg, found, eq⟩ := execDispatch_inv runs
  have onHold := List.mem_of_getElem? found
  have rest : HeldOnce after := inv.heldOnce.dispatch found (by rw [eq]) (by rw [eq])
  have held : ∀ entry ∈ after.held, entry ∈ s.held := by
    intro entry member
    rw [eq] at member
    exact List.mem_of_mem_eraseIdx member
  refine ⟨?_, list.dispatch_held inv.heldOnce runs⟩
  by_cases fromSync : ∃ addr, source = .sync addr
  · obtain ⟨addr, rfl⟩ := fromSync
    obtain ⟨completes, -⟩ := clean.own index addr pMsg procs result found (meets addr pMsg found)
    rw [completes] at eq
    exact inv.dispatch_sender rest onHold held (by rw [eq]) (by rw [eq]) (by rw [eq])
  · have notSync : ∀ addr, source ≠ .sync addr := fun addr same => fromSync ⟨addr, same⟩
    rw [clean.others index source pMsg procs result found notSync] at eq
    exact inv.dispatch_other rest notSync held (by rw [eq]) (by rw [eq]) (by rw [eq])

end Completion

/-! ### A pass -/

/-- What a pass returns from another source has no hidden pointer, as long as the desktop timer
finds none left over. -/
theorem peekPass_plain {env : PeekEnv} {args : PeekArgs} {s after : PeekState} {source : Source}
    (effect : PeekEffect env args s (.got source) after) (notSync : ∀ addr, source ≠ .sync addr)
    (clean : ReachesDeskTimer env args s.world → leftover args s = none) :
    after.pMsg.pSyncMsg = none := by
  cases effect with
  | sync first => exact absurd rfl (notSync first)
  | notify _ _ _ _ _ _ _ _ _ _ _ _ _ _ returned => rw [returned]
  | posted _ _ _ _ _ _ _ _ _ _ returned =>
    rw [returned]
    unfold checkCapturedMouseMessage
    split <;> rfl
  | paint _ _ _ _ _ _ plain => exact plain
  | deskTimer _ _ running sync notify posted desktop due _ _ left =>
    rw [left]
    exact clean ⟨running, sync, notify, posted, desktop, due⟩
  | timer _ _ _ _ _ _ _ _ _ _ _ _ outcome =>
    rcases outcome with outcome | ⟨-, plain⟩
    · cases outcome
    · exact plain

/-- A pass of `PeekMessageEx`. -/
theorem Completion.peek {s after : State} {nodes : List Addr} (inv : Completion s)
    (list : SyncInv s nodes) {env : PeekEnv} {args : PeekArgs} {pMsg : Msg}
    (meets : dispatchStep s (.peek env args pMsg))
    (runs : execPeek s env args pMsg = some after) : Completion after := by
  cases execPeek_sync runs with
  | took first w atHead same => exact inv.take list atHead same.frames rfl
  | looked w same => exact inv.setWorld list same.frames
  | elsewhere outcome afterPass effect other same =>
    refine (inv.setWorld list same.frames).hold other fun source gotSource => ?_
    subst gotSource
    exact peekPass_plain effect (fun addr same => other addr (by rw [same])) meets

/-! ### Runs -/

/-- **One event that meets the condition.** -/
theorem completion_step {s after : State} {nodes : List Addr} {event : Event}
    (list : SyncInv s nodes)
    (inv : Completion s) (meets : dispatchStep s event) (runs : exec s event = some after) :
    (∃ nodes', SyncInv after nodes') ∧ Completion after := by
  by_cases other : leavesSync event = true
  · have kept := other_sync other runs
    refine ⟨⟨nodes, list.same kept⟩, inv.congr (fun addr _ => ?_) list kept.enqueued kept.held
      kept.dispatched⟩
    rw [kept.world.frames]
    exact .refl _
  cases event with
  | sendSync addr win time pad hWnd msg wParam lParam =>
    exact ⟨⟨_, list.send runs⟩, inv.send list runs⟩
  | drain =>
    refine ⟨list.drain runs, ?_⟩
    cases execDrain_effect runs with
    | idle => exact inv
    | took first _ atHead =>
      exact inv.take (w := unlinkFirstSync first s.world) list atHead rfl rfl
    | cleared => exact inv.congr (fun _ _ => .refl _) list rfl rfl rfl
  | peek env args pMsg => exact ⟨list.peek runs, inv.peek list meets runs⟩
  | dispatch index procs result =>
    obtain ⟨inv', list'⟩ := inv.dispatch list meets runs
    exact ⟨⟨nodes, list'⟩, inv'⟩
  | throwAway fuel defNrTimers win hWnd => exact absurd meets id
  | empty fuel => exact absurd meets id
  | _ => exact absurd rfl other

theorem initial_completion (defMsgqueueLen : ℕ) (iBufferLen : ℤ) (buffer : ℕ → Msg)
    (frames : Frames) : Completion (State.initial defMsgqueueLen iBufferLen buffer frames) where
  valid := fun _ member => absurd member List.not_mem_nil
  heldSync := fun _ _ member => absurd member List.not_mem_nil
  heldOther := fun _ _ member => absurd member List.not_mem_nil
  once := fun _ => Nat.zero_le _
  posts := fun _ member => absurd member List.not_mem_nil
  result := fun _ _ member => absurd member List.not_mem_nil

theorem reachable_completion {s : State} (reached : queueSystem.ReachableBy dispatchStep s) :
    ∃ nodes, SyncInv s nodes ∧ Completion s := by
  refine reached.invariant (fun s => ∃ nodes, SyncInv s nodes ∧ Completion s) ?_ ?_
  · rintro _ ⟨defMsgqueueLen, iBufferLen, buffer, frames, -, rfl⟩
    exact ⟨[], initial_syncInv defMsgqueueLen iBufferLen buffer frames,
      initial_completion defMsgqueueLen iBufferLen buffer frames⟩
  · rintro s event after - ⟨nodes, list, inv⟩ meets runs
    obtain ⟨⟨nodes', list'⟩, inv'⟩ := completion_step list inv meets runs
    exact ⟨nodes', list', inv'⟩

/-- **A sender is completed by its own dispatch, once**, in every state of every run that meets the
condition. -/
theorem completed_once_when_clean {s : State} (reached : queueSystem.ReachableBy dispatchStep s) :
    CompletedOnce s := by
  obtain ⟨nodes, list, inv⟩ := reachable_completion reached
  exact completedOnce list inv

/-- A desktop queue, with the window procedures of an application. -/
def desktopEnv : PeekEnv where
  defNrTimers := 16
  ksCaptured := 0
  tickCounter := 0
  capturedWnd := 0
  hwndDesktop := 1
  isDskQueue := true
  clientToScreen := fun _ lParam => lParam
  invRgn := fun _ => 0

/-- A sender is taken out and dispatched, and its procedure returns 42. -/
theorem completed_once_when_clean_one : ∃ s, State.blank.run [
      .sendSync 7 mainWin 0 none 10 5 0 0, .peek desktopEnv ⟨1, 0, 0, pmRemove⟩ Msg.zero,
      .dispatch 0 ⟨fun _ => true, fun _ => false⟩ 42] = some s ∧ CompletedOnce s := by
  have start : queueSystem.ReachableBy dispatchStep State.blank := .start blank_init
  have sent := start.by_event (Event.sendSync 7 mainWin 0 none 10 5 0 0) trivial rfl
  have taken := sent.by_event (Event.peek desktopEnv ⟨1, 0, 0, pmRemove⟩ Msg.zero)
    (fun reaches => absurd reaches.due (by decide)) rfl
  exact ⟨_, rfl, completed_once_when_clean (taken.by_event
    (Event.dispatch 0 ⟨fun _ => true, fun _ => false⟩ 42) (fun _ _ _ => rfl) rfl)⟩

/-- A filter that rejects the waiting sender, while the desktop timer is due. -/
def rejectSender : List Event :=
  [.sendSync 7 mainWin 0 none 10 5 0 0, .deskTimer,
    .peek desktopEnv ⟨1, 6, 9, pmRemove⟩ Msg.zero,
    .dispatch 0 ⟨fun _ => true, fun _ => false⟩ 42]

/-- **The desktop timer completes a sender that still waits**: the message it returns carries the
hidden pointer of the rejected one. -/
theorem stale_completion : ∃ s, State.blank.run rejectSender = some s ∧ ¬ CompletedOnce s := by
  refine ⟨_, rfl, fun clean => ?_⟩
  have posts := (clean.posts 7 (by decide)).1
  exact absurd posts (by decide)

end Aple.Message
