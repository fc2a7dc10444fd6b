/-
**Which wanted messages does PeekMessageEx find?**

The filter is compared with the first message of each container and with no other.

* `WantedFirst` — the first synchronous message, the first notification or the first posted message
  is in the filter.
* `QuietBehind` — no repaint request, desktop timer or expired timer takes part.
* `wanted_is_found`, `unwanted_first_hides` — what a call makes of the two.
* **`filter_compares_first`** — both, in every state of every run.
-/

import Aple.Message.FilterSound
import Aple.Message.Flags
import Aple.Message.RingFifo

namespace Aple.Message

open Aple.Lib

variable {env : PeekEnv} {win : Windows} {a : PeekArgs} {w : World} {notes : List Msg}

/-! ### The first message of each container -/

theorem headSync_eq (ok : FlagsOk w.queue) :
    headSync w = w.queue.pFirstSyncMsg.map fun first => (first, (w.frames first).msg) := by
  unfold headSync
  cases head : w.queue.pFirstSyncMsg with
  | none => simp
  | some first => rw [if_pos (ok.sync (by rw [head]; simp))]

theorem headNotify_eq (ok : FlagsOk w.queue) (holds : HoldsNotes w notes) :
    (headNotify w).map (fun node => node.map QMsg.msg) = notes.head?.map some := by
  obtain ⟨nodes, list, rfl⟩ := holds
  unfold headNotify
  cases nodes with
  | nil =>
    have empty : w.queue.pFirstNotifyMsg = none := list.first_eq
    simp [empty, QMsgHeap.msgs]
  | cons head rest =>
    have atHead : w.queue.pFirstNotifyMsg = some head := list.first_eq
    obtain ⟨node, read⟩ := list.owned.read (List.mem_cons_self (a := head) (l := rest))
    rw [if_pos (ok.notify (by rw [atHead]; simp)), atHead, QMsgHeap.msgs_cons read]
    simp [read]

theorem headPosted_eq (ok : FlagsOk w.queue) (ring : RingOk w.queue) :
    headPosted w = (pending w.queue).head? := by
  unfold headPosted
  by_cases some_posted : w.queue.readpos = w.queue.writepos
  · have empty : pending w.queue = [] := by rw [pending, some_posted, Ring.contents_self]
    simp [some_posted, empty]
  · rw [(readNext_spec ring some_posted).2, ok.posted some_posted]
    simp [some_posted]

/-- For a proper range the macro is the range. -/
theorem wanted_iff_admits (positive : 0 < a.nMsgFilterMin)
    (ordered : a.nMsgFilterMin ≤ a.nMsgFilterMax) (message : MsgId) :
    isMsgWanted a message = true ↔ Admits a message := by
  refine ⟨admits_of_wanted, fun admitted => ?_⟩
  rcases admitted with ⟨none_min, -⟩ | ⟨above, below⟩
  · rw [none_min] at positive
    exact absurd positive (by decide)
  · simp only [isMsgWanted, Bool.or_eq_true, Bool.and_eq_true, decide_eq_true_eq]
    exact .inr ⟨⟨⟨positive, ordered⟩, above⟩, below⟩

/-- The first message of some container is in the filter. -/
def WantedFirst (a : PeekArgs) (w : World) (notes : List Msg) : Prop :=
  (∃ first, w.queue.pFirstSyncMsg = some first ∧ Admits a (w.frames first).msg.message) ∨
    (∃ msg, notes.head? = some msg ∧ Admits a msg.message) ∨
    ∃ msg, (pending w.queue).head? = some msg ∧ Admits a msg.message

/-- The sources behind the containers have nothing to report. -/
structure QuietBehind (env : PeekEnv) (a : PeekArgs) (w : World) : Prop where
  paint : SkipsPaint env a w
  deskTimer : SkipsDeskTimer env w
  timer : w.queue.expiredTimerMask = 0 ∨ ¬ Admits a msgTimer

/-! ### What a pass finds -/

section

variable (ok : FlagsOk w.queue) (holds : HoldsNotes w notes) (ring : RingOk w.queue)
  (positive : 0 < a.nMsgFilterMin) (ordered : a.nMsgFilterMin ≤ a.nMsgFilterMax)

include ok holds ring positive ordered

/-- The three containers are skipped exactly when no first message is wanted. -/
theorem skips_iff (env : PeekEnv) :
    (lookSync a w = none ∧ lookNotify a w = none ∧ lookPosted env a w = none) ↔
    ¬ WantedFirst a w notes := by
  have wanted := wanted_iff_admits positive ordered
  have sync : lookSync a w = none ↔ ¬ ∃ first, w.queue.pFirstSyncMsg = some first ∧
      Admits a (w.frames first).msg.message := by
    unfold lookSync
    rw [headSync_eq ok]
    cases w.queue.pFirstSyncMsg with
    | none => simp
    | some first => simp [wanted]
  have notify : lookNotify a w = none ↔ ¬ ∃ msg, notes.head? = some msg ∧ Admits a msg.message := by
    have head := headNotify_eq ok holds
    unfold lookNotify
    cases first : headNotify w with
    | none =>
      rw [first] at head
      have empty : notes.head? = none := by simpa using head.symm
      simp [empty]
    | some cell =>
      rw [first] at head
      cases cell with
      | none => simp at head
      | some node =>
        have atHead : notes.head? = some node.msg := by simpa using head.symm
        simp [atHead, wanted]
  have posted : lookPosted env a w = none ↔
      ¬ ∃ msg, (pending w.queue).head? = some msg ∧ Admits a msg.message := by
    unfold lookPosted
    rw [headPosted_eq ok ring]
    cases (pending w.queue).head? with
    | none => simp
    | some msg => simp [wanted]
  unfold WantedFirst
  rw [sync, notify, posted, not_or, not_or]

/-- **A wanted first message is found.** -/
theorem found_of_wantedFirst (env : PeekEnv) (running : w.queue.has .quit = false)
    (first : WantedFirst a w notes) (time : Dword) :
    ∃ source, (peekFound env a time w).1 = .got source := by
  have some_offer := (skips_iff ok holds ring positive ordered env).not.mpr (not_not.mpr first)
  unfold peekFound soonFound
  rw [lookQuit_none.mpr running]
  cases sync : lookSync a w with
  | some offer =>
    obtain ⟨head, -, look⟩ := Option.bind_eq_some_iff.mp sync
    obtain ⟨-, rfl⟩ : isMsgWanted a head.2.message = true ∧ (.got (.sync head.1), head.2) = offer := by
      simpa using look
    exact ⟨_, rfl⟩
  | none =>
    cases notify : lookNotify a w with
    | some offer =>
      obtain ⟨cell, head, look⟩ := Option.bind_eq_some_iff.mp notify
      cases cell with
      | none =>
        have first_note := headNotify_eq ok holds
        rw [head] at first_note
        simp at first_note
      | some node =>
        obtain ⟨-, rfl⟩ : isMsgWanted a node.msg.message = true ∧ (.got .notify, node.msg) = offer := by
          simpa using look
        exact ⟨_, rfl⟩
    | none =>
      cases posted : lookPosted env a w with
      | some offer =>
        obtain ⟨msg, -, look⟩ := Option.bind_eq_some_iff.mp posted
        obtain ⟨-, rfl⟩ : isMsgWanted a msg.message = true ∧ (.got .posted,
          checkCapturedMouseMessage env { msg with pSyncMsg := none }) = offer := by simpa using look
        exact ⟨_, rfl⟩
      | none => exact absurd ⟨sync, notify, posted⟩ some_offer

/-- **Behind an unwanted first message nothing is found.** -/
theorem nothing_of_unwantedFirst (running : w.queue.has .quit = false)
    (unwanted : ¬ WantedFirst a w notes) (quiet : QuietBehind env a w) (time : Dword) :
    peekFound env a time w = (.nothing, Msg.zero) := by
  obtain ⟨sync, notify, posted⟩ := (skips_iff ok holds ring positive ordered env).mpr unwanted
  have timer : ∀ time, lookTimer env a time w = none := by
    intro time
    refine if_neg ?_
    rintro ⟨expired, wanted⟩
    rcases quiet.timer with none_expired | unwanted
    · exact expired none_expired
    · exact unwanted (admits_of_wanted wanted)
  unfold peekFound soonFound
  rw [lookQuit_none.mpr running, sync, notify, posted, lookPaint_none.mpr quiet.paint,
    lookDeskTimer_none.mpr quiet.deskTimer, timer]
  rfl

end

/-! ### What the call returns -/

theorem peekMessageWait_got {bWait : Bool} {source : Source}
    (accepted : ¬ refusesWindow env win a)
    (found : (peekFound env a env.tickCounter w).1 = .got source) (away : Away) (pMsg : Msg) :
    ∃ after, peekMessageWait env win a bWait away pMsg w = some (true, after) := by
  have outcome := (peekPass_found env a ⟨w, clearedMsg env⟩).1.trans found
  have turn : passTurn env a bWait ⟨w, clearedMsg env⟩ =
      some (.inr (true, (peekPass env a ⟨w, clearedMsg env⟩).2)) := by
    unfold passTurn
    rw [show peekPass env a ⟨w, clearedMsg env⟩ = (.got source, _) from Prod.ext outcome rfl]
  unfold peekMessageWait
  rw [if_neg accepted]
  cases away <;> exact ⟨_, by rw [peekWaitLoop, turn]; rfl⟩

/-- Without anything to return, a call that does not wait returns `FALSE`; one that waits is still
waiting as long as nobody changes the queue. -/
theorem peekMessageWait_nothing {bWait : Bool} (accepted : ¬ refusesWindow env win a)
    (found : (peekFound env a env.tickCounter w).1 = .nothing) (pMsg : Msg) :
    (peekMessageWait env win a bWait [] pMsg w).map Prod.fst = if bWait then none else some false := by
  have outcome := (peekPass_found env a ⟨w, clearedMsg env⟩).1.trans found
  have turn : passTurn env a bWait ⟨w, clearedMsg env⟩ =
      some (if bWait then .inl (peekPass env a ⟨w, clearedMsg env⟩).2
        else .inr (false, (peekPass env a ⟨w, clearedMsg env⟩).2)) := by
    unfold passTurn
    rw [show peekPass env a ⟨w, clearedMsg env⟩ = (.nothing, _) from Prod.ext outcome rfl]
  unfold peekMessageWait
  rw [if_neg accepted, peekWaitLoop, turn]
  cases bWait <;> rfl

/-! ### The result -/

/-- **The filter is compared with the first messages.** If one of them is in the filter, the call
returns `TRUE` at once, waiting or not. If none is and the other sources are quiet, it does not,
whatever is pending behind them. -/
theorem filter_compares_first {s : State} (reached : queueSystem.Reachable s)
    (running : s.world.queue.has .quit = false) (positive : 0 < a.nMsgFilterMin)
    (ordered : a.nMsgFilterMin ≤ a.nMsgFilterMax) (accepted : ¬ refusesWindow env win a) :
    ∃ notes, HoldsNotes s.world notes ∧
      (WantedFirst a s.world notes → ∀ bWait away pMsg,
        ∃ after, peekMessageWait env win a bWait away pMsg s.world = some (true, after)) ∧
      (¬ WantedFirst a s.world notes → QuietBehind env a s.world → ∀ bWait pMsg,
        (peekMessageWait env win a bWait [] pMsg s.world).map Prod.fst =
          if bWait then none else some false) := by
  obtain ⟨notes, holds⟩ := reachable_notify reached
  have ok := reachable_flags reached
  have ring := reachable_ring reached
  refine ⟨notes, holds, fun first bWait away pMsg => ?_, fun unwanted quiet bWait pMsg => ?_⟩
  · obtain ⟨source, found⟩ := found_of_wantedFirst ok holds ring positive ordered env running
      first env.tickCounter
    exact peekMessageWait_got accepted found away pMsg
  · have found := nothing_of_unwantedFirst ok holds ring positive ordered running unwanted quiet
      env.tickCounter
    exact peekMessageWait_nothing accepted (congrArg Prod.fst found) pMsg

/-! ### A wanted message behind another one -/

/-- Window 1 accepts calls; it is not the desktop's. -/
def ownEnv : PeekEnv := ⟨4, 0, 0, 0, 9, false, fun _ lParam => lParam, fun _ => 0⟩

def ownWindows : Windows := fun _ => ⟨typeHwnd, typeMainWin, 0⟩

/-- A caret message in front of a mouse move. -/
def caretThenMove : List Event :=
  [.post 8 5 none 1 msgCaretBlink 0 0, .post 8 6 none 1 msgMouseMove 0 0]

/-- Only mouse moves are wanted. -/
def moveArgs : PeekArgs := ⟨1, msgMouseMove, msgMouseMove, pmRemove⟩

theorem wanted_message_missed : ∃ s msg after, queueSystem.Reachable s ∧
    s.world.queue.has .quit = false ∧ msg ∈ pending s.world.queue ∧
    0 < moveArgs.nMsgFilterMin ∧ moveArgs.nMsgFilterMin ≤ moveArgs.nMsgFilterMax ∧
    Admits moveArgs msg.message ∧
    peekMessageWait ownEnv ownWindows moveArgs false [] Msg.zero s.world = some (false, after) :=
  ⟨_, ⟨1, msgMouseMove, 0, 0, 6, none⟩, _,
    reachable_of_run blank_reachable (rfl : State.blank.run caretThenMove = some _), by decide,
    by decide, by decide, by decide, by decide, rfl⟩

theorem filter_compares_first_missed : ∃ s, State.blank.run caretThenMove = some s ∧
    ∃ notes, HoldsNotes s.world notes ∧
      (WantedFirst moveArgs s.world notes → ∀ bWait away pMsg,
        ∃ after, peekMessageWait ownEnv ownWindows moveArgs bWait away pMsg s.world =
          some (true, after)) ∧
      (¬ WantedFirst moveArgs s.world notes → QuietBehind ownEnv moveArgs s.world →
        ∀ bWait pMsg, (peekMessageWait ownEnv ownWindows moveArgs bWait [] pMsg s.world).map Prod.fst =
          if bWait then none else some false) :=
  ⟨_, rfl, filter_compares_first
    (reachable_of_run blank_reachable (rfl : State.blank.run caretThenMove = some _)) rfl (by decide)
    (by decide) (by decide)⟩

end Aple.Message
