/-
**Does PeekMessageEx respect its filter?**

* `peekWaitLoop`, `peekMessageWait` — the call for both values of `bWait`. Whenever the queue is
  unlocked between two passes (a timer callback, waiting, the idle handler) the others may change it
  in any way; the list says how, and the call is still waiting when the list ends.
* `passStarts` — the states in which the passes of a call begin.
* `Admits` — the documented contract of a filter; `ReachesDeskTimer` — nothing in front of the
  desktop timer is wanted.
* **`filter_sound_iff`** — the message returned is in the filter exactly when no pass of the call
  comes to the desktop timer with a filter that excludes `MSG_TIMEOUT`.
-/

import Aple.Message.PeekOrder
import Aple.Message.System

namespace Aple.Message

open Aple.Lib

/-! ### The call with both values of bWait -/

/-- What happens to the world while the queue is unlocked between two passes. -/
abbrev Away := List (World → World)

/-- What follows a pass: the call returns, or it unlocks the queue and begins another pass. -/
def passTurn (env : PeekEnv) (a : PeekArgs) (bWait : Bool) (s : PeekState) :
    Option (PeekState ⊕ (Bool × PeekState)) :=
  match peekPass env a s with
  | (.quit, s) => some (.inr (false, s))
  | (.got _, s) => some (.inr (true, s))
  | (.callTimer _ _, s) => some (.inl s)
  | (.nothing, s) => some (if bWait then .inl s else .inr (false, s))
  | (.fault, _) => none

/-- The passes of a call; `none` when it is still waiting, or a fault. -/
def peekWaitLoop (env : PeekEnv) (a : PeekArgs) (bWait : Bool) :
    Away → PeekState → Option (Bool × PeekState)
  | [], s => (passTurn env a bWait s).bind (Sum.elim (fun _ => none) some)
  | act :: away, s => (passTurn env a bWait s).bind
      (Sum.elim (fun s => peekWaitLoop env a bWait away { s with world := act s.world }) some)

/-- The states in which the passes of a call begin. -/
def passStarts (env : PeekEnv) (a : PeekArgs) (bWait : Bool) : Away → PeekState → List PeekState
  | [], s => [s]
  | act :: away, s =>
    match passTurn env a bWait s with
    | some (.inl after) => s :: passStarts env a bWait away { after with world := act after.world }
    | _ => [s]

/-- The test of the window argument. -/
def refusesWindow (env : PeekEnv) (win : Windows) (a : PeekArgs) : Prop :=
  a.hWnd ≠ env.hwndDesktop ∧ !isMainVirtWindow win a.hWnd

instance (env : PeekEnv) (win : Windows) (a : PeekArgs) : Decidable (refusesWindow env win a) :=
  inferInstanceAs (Decidable (_ ∧ _))

/-- What `*pMsg` holds when the first pass begins. -/
def clearedMsg (env : PeekEnv) : Msg := { Msg.zero with time := env.tickCounter }

/-- `PeekMessageEx`. -/
def peekMessageWait (env : PeekEnv) (win : Windows) (a : PeekArgs) (bWait : Bool) (away : Away)
    (pMsg : Msg) (w : World) : Option (Bool × PeekState) :=
  if refusesWindow env win a then some (false, ⟨w, pMsg⟩)
  else peekWaitLoop env a bWait away ⟨w, clearedMsg env⟩

/-- The non-waiting call of an accepted window is its passes. -/
theorem peekMessageEx_accepted {env : PeekEnv} {win : Windows} {a : PeekArgs}
    (accepted : ¬ refusesWindow env win a) (callback : TimerCallback) (passes : ℕ) (pMsg : Msg)
    (w : World) : peekMessageEx env win a callback passes pMsg w =
      peekLoop env a callback passes ⟨w, clearedMsg env⟩ :=
  if_neg accepted

theorem peekLoop_succ {env : PeekEnv} {a : PeekArgs} {callback : TimerCallback} {passes : ℕ}
    {s after : PeekState} {outcome : Outcome} :
    peekPass env a s = (outcome, after) → peekLoop env a callback (passes + 1) s =
      match outcome with
      | .quit => some (false, after)
      | .got _ => some (true, after)
      | .callTimer slot timer =>
        peekLoop env a callback passes { after with world := callback slot timer after.world }
      | .nothing => some (false, after)
      | .fault => none := by
  intro pass
  rw [peekLoop, pass]
  cases outcome <;> rfl

/-- A non-waiting call with callbacks is one of these calls. -/
theorem peekLoop_wait {env : PeekEnv} {a : PeekArgs} {callback : TimerCallback} {passes : ℕ}
    {s : PeekState} {result : Bool × PeekState}
    (returns : peekLoop env a callback passes s = some result) :
    ∃ away, peekWaitLoop env a false away s = some result := by
  induction passes generalizing s with
  | zero => cases returns
  | succ passes ih =>
    rcases pass : peekPass env a s with ⟨outcome, after⟩
    rw [peekLoop_succ pass] at returns
    cases outcome with
    | callTimer slot timer =>
      obtain ⟨away, rest⟩ := ih returns
      refine ⟨callback slot timer :: away, ?_⟩
      rw [peekWaitLoop, passTurn, pass]
      exact rest
    | quit | got source | nothing =>
      refine ⟨[], ?_⟩
      rw [peekWaitLoop, passTurn, pass]
      exact returns
    | fault => cases returns

/-! ### The filter -/

/-- The contract of the filter pair: no filter, or an identifier between the two bounds. -/
def Admits (a : PeekArgs) (message : MsgId) : Prop :=
  a.nMsgFilterMin = 0 ∧ a.nMsgFilterMax = 0 ∨
    a.nMsgFilterMin ≤ message ∧ message ≤ a.nMsgFilterMax

instance (a : PeekArgs) (message : MsgId) : Decidable (Admits a message) :=
  inferInstanceAs (Decidable (_ ∨ _))

variable {env : PeekEnv} {win : Windows} {a : PeekArgs} {w : World}

/-- The macro never lets through what the contract excludes. -/
theorem admits_of_wanted {message : MsgId} (wanted : isMsgWanted a message = true) :
    Admits a message := by
  simp only [isMsgWanted, Bool.or_eq_true, Bool.and_eq_true, decide_eq_true_eq] at wanted
  rcases wanted with ⟨min, max⟩ | ⟨⟨-, above⟩, below⟩
  · refine .inl ⟨?_, ?_⟩ <;> bv_omega
  · exact .inr ⟨above, below⟩

/-- A pass that comes to a desktop timer that has ticked has a filter that admits `MSG_TIMEOUT`. -/
def FilterKept (env : PeekEnv) (a : PeekArgs) (w : World) : Prop :=
  env.isDskQueue = true → w.queue.has .deskTimer = true → SkipsToDeskTimer env a w →
    Admits a msgTimeout

theorem checkCaptured_message (env : PeekEnv) (msg : Msg) :
    (checkCapturedMouseMessage env msg).message = msg.message := by
  unfold checkCapturedMouseMessage
  split <;> rfl

/-- What is found respects the filter, if the desktop timer does. -/
theorem peekFound_admits {time : Dword} {source : Source} {msg : Msg} (kept : FilterKept env a w)
    (found : peekFound env a time w = (.got source, msg)) : Admits a msg.message := by
  unfold peekFound at found
  cases soon : soonFound env a time w with
  | some offer =>
    rw [soon] at found
    obtain rfl : offer = (.got source, msg) := found
    generalize same : (Outcome.got source, msg) = offer at soon
    cases soonFound_offer soon with
    | quit | fault => cases same
    | sync first msg' head wanted =>
      cases same
      exact admits_of_wanted wanted
    | notify node head wanted =>
      cases same
      exact admits_of_wanted wanted
    | posted msg' head wanted =>
      cases same
      rw [checkCaptured_message]
      exact admits_of_wanted wanted
    | paint msg' wanted message =>
      cases same
      rw [message]
      exact admits_of_wanted wanted
    | deskTimer msg' skips ticked message =>
      cases same
      obtain ⟨desktop, due⟩ := not_not.mp ticked
      rw [message]
      exact kept desktop due skips
  | none =>
    rw [soon] at found
    cases look : lookTimer env a (offeredTime time w) w with
    | none =>
      rw [look] at found
      cases found
    | some offer =>
      rw [look] at found
      obtain rfl : offer = (.got source, msg) := found
      obtain ⟨-, message, wanted⟩ := lookTimer_offer look
      rw [message]
      exact admits_of_wanted wanted

/-- **One pass.** -/
theorem peekPass_admits_iff (s : PeekState) :
    (∀ source after, peekPass env a s = (.got source, after) → Admits a after.pMsg.message) ↔
      FilterKept env a s.world := by
  obtain ⟨outcome, message⟩ := peekPass_found env a s
  constructor
  · intro sound desktop due skips
    have found : peekFound env a s.pMsg.time s.world = (.got .deskTimer,
        ⟨env.hwndDesktop, msgTimeout, 0, 0, offeredTime s.pMsg.time s.world, none⟩) := by
      unfold peekFound
      rw [soonFound_of_skips skips, lookDeskTimer, if_pos (by rw [desktop, due]; rfl)]
      rfl
    rw [found] at outcome message
    have same := congrArg Msg.message (message .deskTimer outcome)
    have admitted := sound .deskTimer _ (Prod.ext outcome rfl)
    change (peekPass env a s).2.pMsg.message = msgTimeout at same
    rwa [same] at admitted
  · intro kept source after pass
    rw [pass] at outcome message
    have same := congrArg Msg.message (message source rfl)
    change after.pMsg.message = (peekFound env a s.pMsg.time s.world).2.message at same
    rw [same]
    exact peekFound_admits kept (Prod.ext outcome.symm rfl)

/-! ### The call -/

/-- The states in which the passes of a whole call begin. -/
def callStarts (env : PeekEnv) (win : Windows) (a : PeekArgs) (bWait : Bool) (away : Away)
    (w : World) : List PeekState :=
  if refusesWindow env win a then [] else passStarts env a bWait away ⟨w, clearedMsg env⟩

/-- A pass after which the call returns `TRUE` keeps to the filter exactly when its start does. -/
theorem passTurn_true {bWait : Bool} {s after : PeekState}
    (turn : passTurn env a bWait s = some (.inr (true, after))) :
    Admits a after.pMsg.message ↔ FilterKept env a s.world := by
  rw [← peekPass_admits_iff s]
  unfold passTurn at turn
  rcases pass : peekPass env a s with ⟨outcome, after'⟩
  rw [pass] at turn
  cases outcome with
  | got source =>
    obtain rfl : after' = after := by simpa using turn
    constructor
    · rintro admitted source' after'' same
      obtain ⟨-, rfl⟩ := Prod.mk.inj same
      exact admitted
    · exact fun sound => sound source after' rfl
  | nothing =>
    cases bWait <;> simp at turn
  | quit | callTimer slot timer | fault => simp at turn

/-- A pass after which the call does not return `TRUE` has not come to the desktop timer. -/
theorem passTurn_other {bWait : Bool} {s : PeekState} {out : PeekState ⊕ (Bool × PeekState)}
    (turn : passTurn env a bWait s = some out) (other : ∀ after, out ≠ .inr (true, after)) :
    FilterKept env a s.world := by
  rw [← peekPass_admits_iff s]
  intro source after pass
  unfold passTurn at turn
  rw [pass] at turn
  exact absurd (Option.some.inj turn).symm (other after)

/-- The passes of a call that returns. -/
theorem peekWaitLoop_admits_iff {bWait returned : Bool} {away : Away} {s after : PeekState}
    (returns : peekWaitLoop env a bWait away s = some (returned, after)) :
    (returned = true → Admits a after.pMsg.message) ↔
      ∀ start ∈ passStarts env a bWait away s, FilterKept env a start.world := by
  have last : ∀ {s : PeekState}, passTurn env a bWait s = some (.inr (returned, after)) →
      ((returned = true → Admits a after.pMsg.message) ↔ FilterKept env a s.world) := by
    intro s turn
    cases returned with
    | true =>
      exact ⟨fun sound => (passTurn_true turn).mp (sound rfl),
        fun kept _ => (passTurn_true turn).mpr kept⟩
    | false =>
      refine iff_of_true ?_ (passTurn_other turn fun after same => by cases same)
      exact fun impossible => by cases impossible
  induction away generalizing s with
  | nil =>
    obtain ⟨out, turn, rest⟩ := Option.bind_eq_some_iff.mp returns
    cases out with
    | inl s' => cases rest
    | inr result =>
      obtain rfl : result = (returned, after) := Option.some.inj rest
      rw [last turn, passStarts, List.forall_mem_singleton]
  | cons act away ih =>
    obtain ⟨out, turn, rest⟩ := Option.bind_eq_some_iff.mp returns
    rw [passStarts, turn]
    cases out with
    | inl s' =>
      have kept := passTurn_other turn fun after same => by cases same
      refine (ih rest).trans (Iff.symm ?_)
      rw [List.forall_mem_cons]
      exact and_iff_right kept
    | inr result =>
      obtain rfl : result = (returned, after) := Option.some.inj rest
      rw [last turn, List.forall_mem_singleton]

/-- **The filter is respected exactly when** no pass of the call comes to a desktop timer that has
ticked with a filter that excludes `MSG_TIMEOUT`. -/
theorem filter_sound_iff {bWait returned : Bool} {away : Away} (pMsg : Msg) {after : PeekState}
    (returns : peekMessageWait env win a bWait away pMsg w = some (returned, after)) :
    (returned = true → Admits a after.pMsg.message) ↔
      ∀ start ∈ callStarts env win a bWait away w, FilterKept env a start.world := by
  unfold peekMessageWait at returns
  unfold callStarts
  by_cases refused : refusesWindow env win a
  · rw [if_pos refused] at returns ⊢
    obtain ⟨rfl, rfl⟩ := Prod.mk.inj (Option.some.inj returns)
    refine iff_of_true ?_ fun start member => by cases member
    exact fun impossible => by cases impossible
  · rw [if_neg refused] at returns ⊢
    exact peekWaitLoop_admits_iff returns

/-! ### A desktop queue whose timer ticked -/

/-- The desktop's window is 1; no window is captured. -/
def dskEnv : PeekEnv := ⟨4, 0, 0, 0, 1, true, fun _ lParam => lParam, fun _ => 0⟩

/-- A caller that only wants mouse messages. -/
def mouseArgs : PeekArgs := ⟨1, msgFirstMouseMsg, msgLastMouseMsg, pmRemove⟩

theorem filter_unsound : ∃ s after, queueSystem.Reachable s ∧
    peekMessageWait dskEnv (fun _ => ⟨0, 0, 0⟩) mouseArgs false [] Msg.zero s.world =
      some (true, after) ∧
    ¬ Admits mouseArgs after.pMsg.message :=
  ⟨_, _, reachable_of_run blank_reachable (rfl : State.blank.run [.deskTimer] = some _), rfl,
    by decide⟩

/-- The same caller, waiting, when a mouse message was posted first. -/
theorem filter_sound_iff_posted : ∃ s after,
    State.blank.run [.post 8 5 none 1 msgMouseMove 0 0, .deskTimer] = some s ∧
    peekMessageWait dskEnv (fun _ => ⟨0, 0, 0⟩) mouseArgs true [] Msg.zero s.world =
      some (true, after) ∧
    ((true = true → Admits mouseArgs after.pMsg.message) ↔
      ∀ start ∈ callStarts dskEnv (fun _ => ⟨0, 0, 0⟩) mouseArgs true [] s.world,
        FilterKept dskEnv mouseArgs start.world) :=
  ⟨_, _, rfl, rfl, filter_sound_iff Msg.zero rfl⟩

end Aple.Message
