/-
**PeekPostMessage and PeekMessageEx on posted messages.**

The range filter is coded twice: as the macro `IS_MSG_WANTED` and as two comparisons.

* `OnlyPosted` — a queue in which only the ring can hold something.
* `postWanted` — the test of `PeekPostMessage`; `filters_agree_iff` says when it is the macro's.
* `peekPostMessage_spec`, `peekMessageEx_posted` — what the two calls do to the list of posted
  messages.
* **`peeks_agree_iff`** — they agree exactly when the filter is not one with a minimum of zero and
  a maximum that lets the first message through.
-/

import Aple.Message.FilterFirst

namespace Aple.Message

open Aple.Lib

variable {env : PeekEnv} {win : Windows} {a : PeekArgs} {w : World}

/-- No quit, sync, notify, paint, desktop-timer or expired-timer state. -/
structure OnlyPosted (w : World) : Prop where
  quit : w.queue.has .quit = false
  sync : w.queue.pFirstSyncMsg = none
  notify : w.queue.pFirstNotifyMsg = none
  paint : w.queue.has .paint = false
  deskTimer : w.queue.has .deskTimer = false
  timer : w.queue.expiredTimerMask = 0

/-- The first posted message is not a mouse message for the captured window. -/
def NotCaptured (env : PeekEnv) (w : World) : Prop :=
  ∀ msg, (pending w.queue).head? = some msg →
    ¬ (env.capturedWnd = msg.hwnd ∧ msg.message ≥ msgFirstMouseMsg ∧ msg.message ≤ msgLastMouseMsg)

/-! ### The two filters -/

/-- The comparisons of `PeekPostMessage`. -/
def postWanted (a : PeekArgs) (message : MsgId) : Prop :=
  a.nMsgFilterMin = 0 ∧ a.nMsgFilterMax = 0 ∨
    message ≤ a.nMsgFilterMax ∧ message ≥ a.nMsgFilterMin

/-- A minimum of zero with a maximum that lets the message through. -/
def OpenBelow (a : PeekArgs) (message : MsgId) : Prop :=
  a.nMsgFilterMin = 0 ∧ 0 < a.nMsgFilterMax ∧ message ≤ a.nMsgFilterMax

theorem postWanted_of_wanted {message : MsgId} (wanted : isMsgWanted a message = true) :
    postWanted a message := by
  rcases admits_of_wanted wanted with nothing | ⟨above, below⟩
  · exact .inl nothing
  · exact .inr ⟨below, above⟩

/-- **The two filters** differ exactly on these pairs. -/
theorem filters_agree_iff {message : MsgId} :
    (isMsgWanted a message = true ↔ postWanted a message) ↔ ¬ OpenBelow a message := by
  constructor
  · rintro agree ⟨min, max, below⟩
    have wanted := agree.mpr (.inr ⟨below, by rw [min]; bv_omega⟩)
    simp only [isMsgWanted, Bool.or_eq_true, Bool.and_eq_true, decide_eq_true_eq, min] at wanted
    bv_omega
  · intro notOpen
    refine ⟨postWanted_of_wanted, fun wanted => ?_⟩
    simp only [isMsgWanted, Bool.or_eq_true, Bool.and_eq_true, decide_eq_true_eq]
    rcases wanted with ⟨min, max⟩ | ⟨below, above⟩
    · rw [min, max]
      exact .inl ⟨BitVec.le_refl _, BitVec.le_refl _⟩
    · by_cases min : a.nMsgFilterMin = 0
      · by_cases max : 0 < a.nMsgFilterMax
        · exact absurd ⟨min, max, below⟩ notOpen
        · exact .inl ⟨by bv_omega, by bv_omega⟩
      · exact .inr ⟨⟨⟨by bv_omega, by bv_omega⟩, above⟩, below⟩

/-! ### The two calls -/

/-- What a call returned: the value, the message and the posted messages that are left. -/
structure Peeked where
  returned : Bool
  message : Msg
  left : List Msg

/-- A peek at a list of posted messages with some filter. -/
def peekList (wants : MsgId → Prop) [DecidablePred wants] (remove : Bool) : List Msg → Peeked
  | [] => ⟨false, Msg.zero, []⟩
  | msg :: rest =>
    if wants msg.message then ⟨true, msg.visible, if remove then rest else msg :: rest⟩
    else ⟨false, Msg.zero, msg :: rest⟩

instance (a : PeekArgs) : DecidablePred (postWanted a) :=
  fun _ => inferInstanceAs (Decidable (_ ∨ _))

/-- A value, a message when it is `TRUE`, and a ring agree with a peek at the list. -/
structure Peeked.Shows (peeked : Peeked) (returned : Bool) (pMsg : Msg) (q : MsgQueue) : Prop where
  value : returned = peeked.returned
  message : returned = true → pMsg.visible = peeked.message
  ring : pending q = peeked.left

/-- **PeekPostMessage** peeks with its comparisons. -/
theorem peekPostMessage_shows (ok : FlagsOk w.queue) (ring : RingOk w.queue) :
    (peekList (postWanted a) a.remove (pending w.queue)).Shows
      (peekPostMessage a.nMsgFilterMin a.nMsgFilterMax a.uRemoveMsg w.queue).1
      (peekPostMessage a.nMsgFilterMin a.nMsgFilterMax a.uRemoveMsg w.queue).2.1
      (peekPostMessage a.nMsgFilterMin a.nMsgFilterMax a.uRemoveMsg w.queue).2.2 := by
  unfold peekPostMessage
  by_cases none_posted : w.queue.readpos = w.queue.writepos
  · have empty : pending w.queue = [] := by rw [pending, none_posted, Ring.contents_self]
    rw [empty, if_neg (by simp [none_posted])]
    exact ⟨rfl, fun impossible => (by cases impossible), empty⟩
  · obtain ⟨-, popped⟩ := readNext_spec ring none_posted
    rw [if_pos (by simp [ok.posted none_posted, none_posted]), popped, peekList]
    by_cases wanted : postWanted a (w.queue.msg w.queue.readpos).message
    · rw [if_pos wanted]
      simp only [if_pos (show _ ∨ _ from wanted)]
      refine ⟨rfl, fun _ => rfl, ?_⟩
      by_cases remove : a.uRemoveMsg = pmRemove
      · rw [if_pos remove, if_pos (by rw [PeekArgs.remove, remove]; rfl)]
      · rw [if_neg remove, if_neg (by simpa [PeekArgs.remove] using remove)]
        exact popped
    · rw [if_neg wanted]
      simp only [if_neg (show ¬ (_ ∨ _) from wanted)]
      exact ⟨rfl, fun impossible => (by cases impossible), popped⟩

/-- Only the ring can offer something. -/
theorem OnlyPosted.found (only : OnlyPosted w) (time : Dword) :
    peekFound env a time w = (lookPosted env a w).getD (.nothing, Msg.zero) := by
  have timer : ∀ time, lookTimer env a time w = none := fun time =>
    if_neg fun asked => asked.1 only.timer
  unfold peekFound soonFound
  rw [lookQuit_none.mpr only.quit, lookSync_none.mpr fun _ first head => by simp [only.sync] at head,
    lookNotify_none.mpr ⟨fun _ head atHead => by simp [only.notify] at atHead,
      fun _ head node atHead => by simp [only.notify] at atHead⟩,
    lookPaint_none.mpr fun asked => by simp [only.paint] at asked,
    lookDeskTimer_none.mpr fun ticked => by simp [only.deskTimer] at ticked, timer]
  cases lookPosted env a w <;> rfl

/-- **PeekMessageEx** peeks with the macro when only the ring can hold something. -/
theorem peekMessageEx_shows (ok : FlagsOk w.queue) (ring : RingOk w.queue) (only : OnlyPosted w)
    (plain : NotCaptured env w) (accepted : ¬ refusesWindow env win a) (callback : TimerCallback)
    (passes : ℕ) (pMsg : Msg) :
    ∃ returned after,
      peekMessageEx env win a callback (passes + 1) pMsg w = some (returned, after) ∧
      (peekList (isMsgWanted a · = true) a.remove (pending w.queue)).Shows returned after.pMsg
        after.world.queue := by
  obtain ⟨outcome, -⟩ := peekPass_found env a ⟨w, clearedMsg env⟩
  rw [only.found, lookPosted, headPosted_eq ok ring] at outcome
  rw [peekMessageEx_accepted accepted]
  rcases pass : peekPass env a ⟨w, clearedMsg env⟩ with ⟨ended, after⟩
  rw [pass] at outcome
  have effect := peekPass_effect pass
  have nothing : ended = .nothing → pending after.world.queue = pending w.queue := by
    rintro rfl
    exact (peekPass_ring effect (by simp) (by simp)).pending
  cases entries : pending w.queue with
  | nil =>
    obtain rfl : ended = .nothing := by simpa [entries] using outcome
    rw [entries] at nothing
    exact ⟨false, after, peekLoop_succ pass, rfl, fun impossible => (by cases impossible), nothing rfl⟩
  | cons msg rest =>
    by_cases wanted : isMsgWanted a msg.message = true
    · obtain rfl : ended = .got .posted := by simpa [entries, wanted] using outcome
      obtain ⟨-, msg', rest', split, -, message, left⟩ := peekPass_posted ring effect
      obtain ⟨rfl, rfl⟩ : msg = msg' ∧ rest = rest' := by
        simpa [entries] using entries.symm.trans split
      have uncaptured : checkCapturedMouseMessage env { msg with pSyncMsg := none } =
          { msg with pSyncMsg := none } := by
        refine if_neg fun captured => ?_
        exact plain msg (by rw [entries]; rfl) ⟨captured.1, captured.2.1, captured.2.2.1⟩
      refine ⟨true, after, peekLoop_succ pass, ?_⟩
      rw [peekList, if_pos wanted]
      refine ⟨rfl, fun _ => ?_, ?_⟩
      · rw [message, uncaptured]
        rfl
      · rw [left, split]
    · obtain rfl : ended = .nothing := by simpa [entries, wanted] using outcome
      refine ⟨false, after, peekLoop_succ pass, ?_⟩
      rw [peekList, if_neg wanted]
      exact ⟨rfl, fun impossible => (by cases impossible), (nothing rfl).trans entries⟩

/-! ### Agreement -/

/-- Two calls returned the same value, on `TRUE` the same window, identifier, parameters and time,
and left the same posted messages. -/
structure PeeksAgree (ex : Bool × PeekState) (post : Bool × Msg × MsgQueue) : Prop where
  value : ex.1 = post.1
  message : ex.1 = true → ex.2.pMsg.visible = post.2.1.visible
  ring : pending ex.2.world.queue = pending post.2.2

/-- Two filters on one list see the same value exactly when they agree on its head. -/
theorem peekList_returned_iff {wants wants' : MsgId → Prop} [DecidablePred wants]
    [DecidablePred wants'] {remove : Bool} {msgs : List Msg} :
    (peekList wants remove msgs).returned = (peekList wants' remove msgs).returned ↔
      ∀ msg, msgs.head? = some msg → (wants msg.message ↔ wants' msg.message) := by
  cases msgs with
  | nil => simp [peekList]
  | cons msg rest =>
    rw [peekList, peekList]
    by_cases wanted : wants msg.message <;> by_cases wanted' : wants' msg.message <;>
      simp [wanted, wanted']

/-- The value decides the rest. -/
theorem peekList_congr {wants wants' : MsgId → Prop} [DecidablePred wants] [DecidablePred wants']
    {remove : Bool} {msgs : List Msg}
    (same : (peekList wants remove msgs).returned = (peekList wants' remove msgs).returned) :
    peekList wants remove msgs = peekList wants' remove msgs := by
  cases msgs with
  | nil => rfl
  | cons msg rest =>
    rw [peekList, peekList] at same ⊢
    by_cases wanted : wants msg.message <;> by_cases wanted' : wants' msg.message
    · rw [if_pos wanted, if_pos wanted']
    · simp [wanted, wanted'] at same
    · simp [wanted, wanted'] at same
    · rw [if_neg wanted, if_neg wanted']

/-- **The two calls agree** exactly when the filter does not have a minimum of zero with a maximum
that lets the first posted message through. -/
theorem peeks_agree_iff {s : State} (reached : queueSystem.Reachable s) (only : OnlyPosted s.world)
    (plain : NotCaptured env s.world) (accepted : ¬ refusesWindow env win a)
    (callback : TimerCallback) (passes : ℕ) (pMsg : Msg) :
    ∃ ex, peekMessageEx env win a callback (passes + 1) pMsg s.world = some ex ∧
      (PeeksAgree ex
          (peekPostMessage a.nMsgFilterMin a.nMsgFilterMax a.uRemoveMsg s.world.queue) ↔
        ∀ msg, (pending s.world.queue).head? = some msg → ¬ OpenBelow a msg.message) := by
  have ok := reachable_flags reached
  have ring := reachable_ring reached
  obtain ⟨returned, after, call, ex⟩ :=
    peekMessageEx_shows ok ring only plain accepted callback passes pMsg
  have post := peekPostMessage_shows (a := a) ok ring
  refine ⟨(returned, after), call, ?_⟩
  have agree : (peekList (isMsgWanted a · = true) a.remove (pending s.world.queue)).returned =
      (peekList (postWanted a) a.remove (pending s.world.queue)).returned ↔
      ∀ msg, (pending s.world.queue).head? = some msg → ¬ OpenBelow a msg.message := by
    rw [peekList_returned_iff]
    exact forall₂_congr fun msg _ => filters_agree_iff
  rw [← agree]
  constructor
  · intro agrees
    rw [← ex.value, ← post.value]
    exact agrees.value
  · intro same
    have equal := peekList_congr same
    rw [equal] at ex
    refine ⟨ex.value.trans post.value.symm, fun found => ?_, ex.ring.trans post.ring.symm⟩
    have posted := post.message (post.value.trans (ex.value.symm.trans found))
    exact (ex.message found).trans posted.symm

/-! ### A filter from zero -/

/-- A mouse move was posted, and the caller asks for identifiers up to the last mouse message. -/
def fromZero : PeekArgs := ⟨1, 0, msgLastMouseMsg, pmRemove⟩

def oneMove : List Event := [.post 8 5 none 1 msgMouseMove 0 0]

theorem peeks_disagree : ∃ s ex, queueSystem.Reachable s ∧ OnlyPosted s.world ∧
    NotCaptured ownEnv s.world ∧
    peekMessageEx ownEnv ownWindows fromZero (fun _ _ w => w) 1 Msg.zero s.world = some ex ∧
    ¬ PeeksAgree ex (peekPostMessage fromZero.nMsgFilterMin fromZero.nMsgFilterMax
      fromZero.uRemoveMsg s.world.queue) := by
  refine ⟨_, _, reachable_of_run blank_reachable (rfl : State.blank.run oneMove = some _),
    ⟨rfl, rfl, rfl, rfl, rfl, rfl⟩, ?_, rfl, ?_⟩
  · rintro msg head ⟨captured, -⟩
    cases head
    exact absurd captured (by decide)
  · intro agree
    exact absurd agree.value (by decide)

theorem peeks_agree_iff_move : ∃ s, State.blank.run oneMove = some s ∧
    ∃ ex, peekMessageEx ownEnv ownWindows moveArgs (fun _ _ w => w) (0 + 1) Msg.zero s.world =
        some ex ∧
      (PeeksAgree ex (peekPostMessage moveArgs.nMsgFilterMin moveArgs.nMsgFilterMax
          moveArgs.uRemoveMsg s.world.queue) ↔
        ∀ msg, (pending s.world.queue).head? = some msg → ¬ OpenBelow moveArgs msg.message) := by
  refine ⟨_, rfl, peeks_agree_iff
    (reachable_of_run blank_reachable (rfl : State.blank.run oneMove = some _))
    ⟨rfl, rfl, rfl, rfl, rfl, rfl⟩ ?_ (by decide) (fun _ _ w => w) 0 Msg.zero⟩
  rintro msg head ⟨captured, -⟩
  cases head
  exact absurd captured (by decide)

end Aple.Message
