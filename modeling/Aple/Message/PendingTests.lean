/-
**Three tests for a pending message.**

* `havePendingMessageEx`, `waitMessage` — the checks of the two functions, in their own orders.
* `Idle` — what a queue looks like when a check falls through; both checks fall through exactly then.
* `Idles` — a stage that leaves `*pMsg` alone and falls through; every stage of a pass does so over an
  idle queue.
* **`pending_tests_agree`** — the two checks agree, and an unfiltered call of `PeekMessageEx` finds
  nothing that they do not see.
-/

import Aple.Message.Flags
import Aple.Message.TimerCallbacks

namespace Aple.Message

open Aple.Lib

/-! ### The checks -/

/-- The check of `HavePendingMessageEx`: `true` at `retok`, `false` in front of the idle handler. -/
def havePendingMessageEx (isDskQueue bNoDeskTimer : Bool) (q : MsgQueue) : Bool :=
  (q.has .syncMsg && q.pFirstSyncMsg.isSome)
    || (q.has .notifyMsg && q.pFirstNotifyMsg.isSome)
    || (q.has .postMsg && q.readpos != q.writepos)
    || q.dwState &&& (Qs.quit.mask ||| Qs.paint.mask) != 0
    || q.expiredTimerMask != 0
    || (!bNoDeskTimer && isDskQueue && q.has .deskTimer)

/-- The check of `WaitMessage`: `true` at `getit`, `false` in front of the idle handler. -/
def waitMessage (isDskQueue : Bool) (q : MsgQueue) : Bool :=
  q.has .quit
    || (q.has .syncMsg && q.pFirstSyncMsg.isSome)
    || (q.has .notifyMsg && q.pFirstNotifyMsg.isSome)
    || (q.has .postMsg && q.readpos != q.writepos)
    || q.has .paint
    || (isDskQueue && q.has .deskTimer)
    || q.expiredTimerMask != 0

/-- Nothing is pending that a status bit reports, and no timer has expired. -/
structure Idle (isDskQueue : Bool) (q : MsgQueue) : Prop where
  running : q.has .quit = false
  sync : q.has .syncMsg = true → q.pFirstSyncMsg = none
  notify : q.has .notifyMsg = true → q.pFirstNotifyMsg = none
  posted : q.has .postMsg = true → q.readpos = q.writepos
  paint : q.has .paint = false
  deskTimer : (isDskQueue && q.has .deskTimer) = false
  timers : q.expiredTimerMask = 0

section Checks

variable {isDskQueue : Bool} {q : MsgQueue}

/-- Two status bits tested at once. -/
theorem has_or (flag flag' : Qs) (state : Dword) :
    (state &&& (flag.mask ||| flag'.mask) != 0) = (Dword.has state flag || Dword.has state flag') := by
  rw [BitVec.and_or_distrib_left, Dword.has, Dword.has]
  rw [Bool.eq_iff_iff]
  simp only [bne_iff_ne, Bool.or_eq_true, ne_eq]
  rw [← not_and_or, not_iff_not]
  exact BitVec.or_eq_zero_iff

/-- **Both checks** fall through over an idle queue, and over no other. -/
theorem waitMessage_iff : waitMessage isDskQueue q = false ↔ Idle isDskQueue q := by
  unfold waitMessage
  simp only [Bool.or_eq_false_iff]
  constructor
  · rintro ⟨⟨⟨⟨⟨⟨running, sync⟩, notify⟩, posted⟩, paint⟩, deskTimer⟩, timers⟩
    exact ⟨running, by simpa using sync, by simpa using notify, by simpa using posted, paint, deskTimer,
      by simpa using timers⟩
  · rintro ⟨running, sync, notify, posted, paint, deskTimer, timers⟩
    exact ⟨⟨⟨⟨⟨⟨running, by simpa using sync⟩, by simpa using notify⟩, by simpa using posted⟩, paint⟩,
      deskTimer⟩, by simpa using timers⟩

theorem havePendingMessageEx_iff : havePendingMessageEx isDskQueue false q = false ↔
    Idle isDskQueue q := by
  unfold havePendingMessageEx
  rw [has_or]
  simp only [Bool.or_eq_false_iff, Bool.not_false, Bool.true_and]
  constructor
  · rintro ⟨⟨⟨⟨⟨sync, notify⟩, posted⟩, running, paint⟩, timers⟩, deskTimer⟩
    exact ⟨running, by simpa using sync, by simpa using notify, by simpa using posted, paint, deskTimer,
      by simpa using timers⟩
  · rintro ⟨running, sync, notify, posted, paint, deskTimer, timers⟩
    exact ⟨⟨⟨⟨⟨by simpa using sync, by simpa using notify⟩, by simpa using posted⟩, running, paint⟩,
      by simpa using timers⟩, deskTimer⟩

theorem waitMessage_eq : waitMessage isDskQueue q = havePendingMessageEx isDskQueue false q := by
  rw [← Bool.not_inj_iff, Bool.eq_iff_iff, Bool.not_eq_true', Bool.not_eq_true', waitMessage_iff,
    havePendingMessageEx_iff]

end Checks

/-! ### A pass over an idle queue -/

section Pass

variable {env : PeekEnv} {a : PeekArgs} {s : PeekState} {w w' : World}

/-- Clearing bits leaves the queue idle. -/
theorem FlagsOnly.idle (only : FlagsOnly env w w') (idle : Idle env.isDskQueue w.queue) :
    Idle env.isDskQueue w'.queue := by
  have fewer : ∀ flag, w'.queue.has flag = true → w.queue.has flag = true := by
    intro flag set
    rcases only.flags flag with same | ⟨-, cleared⟩
    · exact same.symm.trans set
    · exact absurd (cleared.symm.trans set) (by simp)
  have stays : ∀ flag, w.queue.has flag = false → w'.queue.has flag = false := fun flag unset => by
    rw [Bool.eq_false_iff]
    exact fun set => absurd (unset.symm.trans (fewer flag set)) (by simp)
  obtain ⟨state, eq⟩ := only.queue
  constructor
  case running => exact stays _ idle.running
  case paint => exact stays _ idle.paint
  case sync =>
    intro set
    rw [eq]
    exact idle.sync (fewer _ set)
  case notify =>
    intro set
    rw [eq]
    exact idle.notify (fewer _ set)
  case posted =>
    intro set
    rw [eq]
    exact idle.posted (fewer _ set)
  case deskTimer =>
    rcases Bool.and_eq_false_iff.mp idle.deskTimer with other | unset
    · rw [other, Bool.false_and]
    · rw [stays _ unset, Bool.and_false]
  case timers =>
    rw [eq]
    exact idle.timers

/-- The stage falls through without a look at a message. -/
def Idles (env : PeekEnv) (s : PeekState) (stage : Stage) : Prop :=
  ∃ w', stage = .ok { s with world := w' } ∧ FlagsOnly env s.world w'

/-- One idle stage after the other. -/
theorem Idles.bind {stage : Stage} {stages : PeekState → Stage} (idle : Idle env.isDskQueue s.world.queue)
    (first : Idles env s stage)
    (others : ∀ s', Idle env.isDskQueue s'.world.queue → Idles env s' (stages s')) :
    Idles env s (stage >>= stages) := by
  obtain ⟨w', rfl, only⟩ := first
  obtain ⟨w'', later, only'⟩ := others { s with world := w' } (only.idle idle)
  exact ⟨w'', later, only.trans only'⟩

variable (idle : Idle env.isDskQueue s.world.queue)
include idle

theorem peekQuit_idles : Idles env s (peekQuit a s) := by
  refine ⟨s.world, ?_, .refl _⟩
  unfold peekQuit
  rw [if_neg (by simp [idle.running])]

theorem peekSync_idles : Idles env s (peekSync a s) := by
  unfold peekSync
  by_cases flagged : s.world.queue.has .syncMsg = true
  · have empty := idle.sync flagged
    simp only [if_pos flagged, empty]
    exact ⟨_, rfl, .clear .syncMsg empty⟩
  · simp only [if_neg flagged]
    exact ⟨s.world, rfl, .refl _⟩

theorem peekNotify_idles : Idles env s (peekNotify a s) := by
  unfold peekNotify
  by_cases flagged : s.world.queue.has .notifyMsg = true
  · have empty := idle.notify flagged
    simp only [if_pos flagged, empty]
    exact ⟨_, rfl, .clear .notifyMsg empty⟩
  · simp only [if_neg flagged]
    exact ⟨s.world, rfl, .refl _⟩

theorem peekPosted_idles : Idles env s (peekPosted env a s) := by
  unfold peekPosted
  by_cases flagged : s.world.queue.has .postMsg = true
  · have empty := idle.posted flagged
    simp only [if_pos flagged, empty, ne_eq, not_true_eq_false, if_false]
    exact ⟨_, rfl, .clear .postMsg empty⟩
  · simp only [if_neg flagged]
    exact ⟨s.world, rfl, .refl _⟩

theorem peekPaint_idles : Idles env s (peekPaint env a s) := by
  refine ⟨s.world, ?_, .refl _⟩
  unfold peekPaint
  rw [if_neg (by simp [idle.paint])]

theorem peekDeskTimer_idles : Idles env s (peekDeskTimer env a s) := by
  refine ⟨s.world, ?_, .refl _⟩
  unfold peekDeskTimer
  rw [if_neg (by simp [idle.deskTimer])]

theorem peekTimer_idles : Idles env s (peekTimer env a s) := by
  refine ⟨s.world, ?_, .refl _⟩
  unfold peekTimer
  exact if_neg fun asked => asked.1 idle.timers

/-- **A pass over an idle queue** finds nothing, for every filter. -/
theorem peekPass_idle : ∃ w', peekPass env a s = (.nothing, { s with world := w' }) ∧
    FlagsOnly env s.world w' := by
  obtain ⟨w', falls, only⟩ : Idles env s (peekStages env a s) :=
    .bind idle (peekQuit_idles idle) fun _ idle => .bind idle (peekSync_idles idle) fun _ idle =>
      .bind idle (peekNotify_idles idle) fun _ idle => .bind idle (peekPosted_idles idle) fun _ idle =>
      .bind idle (peekPaint_idles idle) fun _ idle => .bind idle (peekDeskTimer_idles idle)
      fun _ idle => peekTimer_idles idle
  exact ⟨w', by rw [peekPass, falls], only⟩

end Pass

/-! ### The result -/

/-- The three tests on one queue. -/
structure TestsAgree (env : PeekEnv) (w : World) : Prop where
  checks : waitMessage env.isDskQueue w.queue = havePendingMessageEx env.isDskQueue false w.queue
  /-- A call that returns a message, or reports `MSG_QUIT`, is foreseen. -/
  foreseen : ∀ {σ : Type} (proc : TimerProc σ) win args passes c pMsg found c' after,
    Unfiltered env win args →
    (peekMessageExTrace env args proc win passes c pMsg w).2 = some (found, c', after) →
    found = true ∨ after.pMsg.message = msgQuit →
    havePendingMessageEx env.isDskQueue false w.queue = true
  /-- When the check falls through, the call returns `FALSE` at once and runs no callback. -/
  nothing : havePendingMessageEx env.isDskQueue false w.queue = false →
    ∀ {σ : Type} (proc : TimerProc σ) win args passes c pMsg, Unfiltered env win args →
    ∃ w', peekMessageExTrace env args proc win (passes + 1) c pMsg w =
        ([], some (false, c, ⟨w', { Msg.zero with time := env.tickCounter }⟩)) ∧
      FlagsOnly env w w'

/-- **The three tests agree**, on every queue. -/
theorem pending_tests_agree (env : PeekEnv) (w : World) : TestsAgree env w := by
  have nothing : havePendingMessageEx env.isDskQueue false w.queue = false →
      ∀ {σ : Type} (proc : TimerProc σ) win args passes c pMsg, Unfiltered env win args →
      ∃ w', peekMessageExTrace env args proc win (passes + 1) c pMsg w =
          ([], some (false, c, ⟨w', { Msg.zero with time := env.tickCounter }⟩)) ∧
        FlagsOnly env w w' := by
    intro falls σ proc win args passes c pMsg unfiltered
    have idle : Idle env.isDskQueue w.queue := havePendingMessageEx_iff.mp falls
    obtain ⟨w', pass, only⟩ :=
      @peekPass_idle env args ⟨w, { Msg.zero with time := env.tickCounter }⟩ idle
    refine ⟨w', ?_, only⟩
    rw [peekMessageExTrace, if_neg unfiltered.accepted, peekTrace, pass]
  refine ⟨waitMessage_eq, ?_, nothing⟩
  intro σ proc win args passes c pMsg found c' after unfiltered returns reports
  by_contra unseen
  rw [Bool.not_eq_true] at unseen
  cases passes with
  | zero =>
    rw [peekMessageExTrace, if_neg unfiltered.accepted, peekTrace] at returns
    cases returns
  | succ passes =>
    obtain ⟨w', call, -⟩ := nothing unseen proc win args passes c pMsg unfiltered
    rw [call] at returns
    obtain ⟨rfl, -, rfl⟩ : false = found ∧ c = c' ∧ _ = after := by simpa using returns
    rcases reports with got | quit
    · cases got
    · have zero : Msg.zero.message = msgQuit := quit
      exact absurd zero (by decide)

end Aple.Message
