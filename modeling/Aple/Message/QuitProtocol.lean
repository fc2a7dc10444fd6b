/-
**The quit protocol.**

* `QuitAct`, `quitSystem` — the runs of a queue with the history of its quit requests: accepted
  ones, reports of `MSG_QUIT` by a removing pass, emptyings of the queue.
* `owed` — reads a history: whether a request is still to be reported; `none` when a report had no
  request before it, or a request was accepted on top of another one.
* `QuitOk` — the quit bit, the loop depth and the history agree, and a request is reported on
  demand.
* **`quit_ok_when_kept`** — they do in every run that empties the queue only while it is not
  quitting.
* `empty_keeps_the_depth` — `EmptyMessageQueue` clears the bit but not the depth, so that the next
  request is reported twice.
-/

import Aple.Message.Frame

namespace Aple.Message

open Aple.Lib

/-! ### The history -/

/-- What happens to quit requests. -/
inductive QuitAct
  | accepted | reported | emptied
deriving DecidableEq, Repr

/-- A queue with the history of its quit requests, the newest first. -/
structure QuitState where
  base : State
  acts : List QuitAct

/-- What an event does to the quit requests. A `PostQuitMessage` on a quitting queue is not
accepted. -/
def quitAct (s : State) : Event → Option QuitAct
  | .postQuit => if s.world.queue.has .quit then none else some .accepted
  | .peek env args pMsg =>
    if (peekPass env args ⟨s.world, pMsg⟩).1 = .quit ∧ args.remove = true then some .reported else none
  | .empty _ => some .emptied
  | _ => none

def quitExec (s : QuitState) (event : Event) : Option QuitState :=
  (exec s.base event).map fun after => ⟨after, (quitAct s.base event).toList ++ s.acts⟩

/-- Every run of the queue, with its history. -/
def quitSystem : System QuitState Event where
  init s := queueSystem.init s.base ∧ s.acts = []
  step s event after := quitExec s event = some after

/-- Whether a request is to be reported. Emptying the queue drops it. -/
def owed : List QuitAct → Option Bool
  | [] => some false
  | .accepted :: acts => if owed acts = some false then some true else none
  | .reported :: acts => if owed acts = some true then some false else none
  | .emptied :: acts => (owed acts).map fun _ => false

/-- The quit protocol. -/
structure QuitOk (s : QuitState) : Prop where
  flag : s.base.world.queue.has .quit = true ↔ 0 < s.base.world.queue.loopDepth
  nonneg : 0 ≤ s.base.world.queue.loopDepth
  /-- Each request is reported once, unless the queue was emptied before, and nothing else is. -/
  owed : owed s.acts = some (s.base.world.queue.has .quit)
  /-- A call on a quitting queue reports it, and a removing one pays the debt. -/
  reports : s.base.world.queue.has .quit = true → ∀ env win args callback passes pMsg,
    args.hWnd = env.hwndDesktop ∨ isMainVirtWindow win args.hWnd = true →
    ∃ after, peekMessageEx env win args callback (passes + 1) pMsg s.base.world = some (false, after) ∧
      after.pMsg.message = msgQuit ∧ after.world.queue.has .quit = !args.remove

/-- The condition: the queue is not emptied while it is quitting. -/
def KeepsQuit (s : QuitState) : Event → Prop
  | .empty _ => s.base.world.queue.has .quit = false
  | _ => True

/-! ### Passes -/

/-- A pass over a quitting queue. -/
theorem peekPass_quitting (env : PeekEnv) (a : PeekArgs) (s : PeekState)
    (quitting : s.world.queue.has .quit = true) (depth : s.world.queue.loopDepth = 1) :
    ∃ after, peekPass env a s = (.quit, after) ∧ after.pMsg.message = msgQuit ∧
      after.world.queue.has .quit = !a.remove ∧
      after.world.queue.loopDepth = if a.remove then 0 else 1 := by
  obtain ⟨after, jumps, facts⟩ : ∃ after, peekQuit a s = .error (.quit, after) ∧
      after.pMsg.message = msgQuit ∧ after.world.queue.has .quit = !a.remove ∧
      after.world.queue.loopDepth = if a.remove then 0 else 1 := by
    simp only [peekQuit, if_pos quitting, depth]
    refine ⟨_, rfl, rfl, ?_⟩
    cases a.remove with
    | true => simp [PeekState.setQueue, MsgQueue.clearFlag, MsgQueue.has]
    | false => exact ⟨quitting, depth⟩
  refine ⟨after, ?_, facts⟩
  unfold peekPass peekStages
  rw [jumps]
  rfl

/-- Falling through does not touch the loop depth. -/
theorem Tidied.loopDepth {w w' : World} (tidied : Tidied w w') :
    w'.queue.loopDepth = w.queue.loopDepth := by
  obtain ⟨_, _, _, eq⟩ := tidied.queue
  rw [eq]

/-- A pass that did not report a quit request. -/
structure RanOn (q q' : MsgQueue) : Prop where
  quit : q'.has .quit = q.has .quit
  loopDepth : q'.loopDepth = q.loopDepth

theorem Tidied.ranOn {w w' : World} {q : MsgQueue} (tidied : Tidied w w') (before : RanOn q w.queue) :
    RanOn q w'.queue :=
  ⟨tidied.quit.trans before.quit, tidied.loopDepth.trans before.loopDepth⟩

/-- A pass over any other queue reports none, and leaves the protocol alone. -/
theorem PeekEffect.ranOn {env : PeekEnv} {a : PeekArgs} {s after : PeekState} {outcome : Outcome}
    (effect : PeekEffect env a s outcome after) (good : outcome ≠ .fault)
    (running : s.world.queue.has .quit = false) :
    outcome ≠ .quit ∧ RanOn s.world.queue after.world.queue := by
  have start : RanOn s.world.queue s.world.queue := ⟨rfl, rfl⟩
  cases effect with
  | quit _ jumps => simp [peekQuit, running] at jumps
  | sync first _ _ _ _ _ tidied _ =>
    refine ⟨by simp, tidied.ranOn ?_⟩
    split
    · exact ⟨rfl, rfl⟩
    · exact start
  | notify head node tidy removed _ _ _ _ _ _ _ before unlinks tidied _ =>
    refine ⟨by simp, tidied.ranOn ?_⟩
    have kept := before.ranOn start
    split at unlinks
    · obtain ⟨heap, -, rfl⟩ := Option.map_eq_some_iff.mp unlinks
      exact ⟨kept.quit, kept.loopDepth⟩
    · rw [unlinks]
      exact kept
  | posted tidy _ _ _ _ _ _ _ before tidied _ =>
    refine ⟨by simp, tidied.ranOn ?_⟩
    have kept := before.ranOn start
    split
    · exact ⟨kept.quit, kept.loopDepth⟩
    · exact kept
  | paint _ _ _ _ _ tidied _ => exact ⟨by simp, tidied.ranOn start⟩
  | deskTimer tidy _ _ _ _ _ _ _ before tidied _ _ =>
    refine ⟨by simp, tidied.ranOn ?_⟩
    have kept := before.ranOn start
    split
    · have aside := Aside.clearFlag tidy.queue (by decide : Qs.deskTimer ≠ .quit) (by decide)
      exact ⟨aside.quit.trans kept.quit, aside.loopDepth.trans kept.loopDepth⟩
    · exact kept
  | timer _ slot timer tidy _ _ _ _ _ _ before tidied ends =>
    have kept := before.ranOn start
    refine ⟨?_, tidied.ranOn ⟨kept.quit, kept.loopDepth⟩⟩
    rintro rfl
    rcases ends with ends | ⟨ends, -⟩ <;> cases ends
  | nothing _ _ _ _ _ tidied => exact ⟨by simp, tidied.ranOn start⟩
  | fault => exact absurd rfl good

/-! ### The invariant -/

/-- At most one request is owed, and the depth counts it. -/
structure QuitInv (s : QuitState) : Prop where
  loopDepth : s.base.world.queue.loopDepth = if s.base.world.queue.has .quit then 1 else 0
  owed : owed s.acts = some (s.base.world.queue.has .quit)

namespace QuitInv

variable {s : QuitState} {after : State}

theorem ok (inv : QuitInv s) : QuitOk s := by
  have depth := inv.loopDepth
  refine ⟨?_, ?_, inv.owed, ?_⟩
  · rw [depth]
    split <;> simp_all
  · rw [depth]
    split <;> decide
  · intro quitting env win args callback passes pMsg window
    rw [if_pos quitting] at depth
    have call : peekMessageEx env win args callback (passes + 1) pMsg s.base.world =
        peekLoop env args callback (passes + 1)
          ⟨s.base.world, { Msg.zero with time := env.tickCounter }⟩ := by
      refine if_neg ?_
      rintro ⟨notDesktop, notWindow⟩
      rcases window with desktop | window
      · exact notDesktop desktop
      · simp [window] at notWindow
    obtain ⟨after, pass, message, flag, -⟩ := peekPass_quitting env args
      ⟨s.base.world, { Msg.zero with time := env.tickCounter }⟩ quitting depth
    refine ⟨after, ?_, message, flag⟩
    rw [call, peekLoop, pass]

/-- An event that has nothing to do with quitting. -/
theorem ranOn (inv : QuitInv s) (ran : RanOn s.base.world.queue after.world.queue) :
    QuitInv ⟨after, s.acts⟩ := by
  refine ⟨?_, ?_⟩
  · show after.world.queue.loopDepth = if after.world.queue.has .quit then 1 else 0
    rw [ran.loopDepth, ran.quit]
    exact inv.loopDepth
  · show Message.owed s.acts = some (after.world.queue.has .quit)
    rw [ran.quit]
    exact inv.owed

/-- `PostQuitMessage`. -/
theorem postQuit (inv : QuitInv s) :
    QuitInv ⟨s.base.setQueue (postQuitMessage s.base.world.queue),
      (quitAct s.base .postQuit).toList ++ s.acts⟩ := by
  have depth := inv.loopDepth
  have owed := inv.owed
  simp only [quitAct, postQuitMessage]
  by_cases quitting : s.base.world.queue.has .quit = true
  · rw [if_pos quitting, if_pos quitting]
    exact inv
  · rw [if_neg quitting, if_neg quitting]
    rw [if_neg quitting] at depth
    rw [Bool.not_eq_true] at quitting
    have set : (s.base.world.queue.setFlag .quit).has .quit = true := by simp
    refine ⟨?_, ?_⟩
    · show s.base.world.queue.loopDepth + 1 = if (s.base.world.queue.setFlag .quit).has .quit then 1 else 0
      rw [depth, set]
      rfl
    · show (if Message.owed s.acts = some false then some true else none) =
        some ((s.base.world.queue.setFlag .quit).has .quit)
      rw [owed, quitting, set]
      rfl

/-- A pass of `PeekMessageEx`. -/
theorem peek (inv : QuitInv s) {env : PeekEnv} {args : PeekArgs} {pMsg : Msg}
    (runs : exec s.base (.peek env args pMsg) = some after) :
    QuitInv ⟨after, (quitAct s.base (.peek env args pMsg)).toList ++ s.acts⟩ := by
  have owed := inv.owed
  obtain ⟨outcome, afterPass, pass, effect, good, rfl⟩ := execPeek_inv runs
  simp only [quitAct, pass]
  by_cases quitting : s.base.world.queue.has .quit = true
  · have depth := inv.loopDepth
    rw [if_pos quitting] at depth
    obtain ⟨after', pass', -, flag, loopDepth⟩ :=
      peekPass_quitting env args ⟨s.base.world, pMsg⟩ quitting depth
    obtain ⟨rfl, rfl⟩ := Prod.mk.inj (pass.symm.trans pass')
    cases remove : args.remove with
    | true =>
      rw [remove] at flag loopDepth
      refine ⟨?_, ?_⟩
      · show ((s.base.setWorld afterPass.world).hold .quit true afterPass.pMsg).world.queue.loopDepth = _
        rw [State.world_hold]
        show afterPass.world.queue.loopDepth = if afterPass.world.queue.has .quit then 1 else 0
        rw [loopDepth, flag]
        rfl
      · show (if Message.owed s.acts = some true then some false else none) =
          some (afterPass.world.queue.has .quit)
        rw [owed, quitting, flag]
        rfl
    | false =>
      rw [remove] at flag loopDepth
      refine inv.ranOn ⟨?_, ?_⟩
      · exact flag.trans quitting.symm
      · exact loopDepth.trans depth.symm
  · rw [Bool.not_eq_true] at quitting
    obtain ⟨notQuit, ran⟩ := effect.ranOn good quitting
    rw [if_neg fun both => notQuit both.1]
    refine inv.ranOn ?_
    rw [State.world_hold]
    exact ran

/-- `EmptyMessageQueue` on a queue that is not quitting. -/
theorem empty (inv : QuitInv s) {fuel : ℕ} (kept : KeepsQuit s (.empty fuel))
    (runs : exec s.base (.empty fuel) = some after) : QuitInv ⟨after, .emptied :: s.acts⟩ := by
  have depth := inv.loopDepth
  have owed := inv.owed
  have quiet : s.base.world.queue.has .quit = false := kept
  obtain ⟨w, returns, rfl⟩ := Option.map_eq_some_iff.mp runs
  obtain ⟨_, synced, heap, first, second, rfl⟩ := emptyMessageQueue_inv returns
  obtain ⟨_, _, -, rfl⟩ := cancelSync_frame first
  have flag : Dword.has qsEmpty .quit = false := Dword.has_empty .quit
  rw [quiet] at depth owed
  refine ⟨?_, ?_⟩
  · show s.base.world.queue.loopDepth = if Dword.has qsEmpty .quit then 1 else 0
    rw [flag, depth]
  · show (Message.owed s.acts).map (fun _ => false) = some (Dword.has qsEmpty .quit)
    rw [owed, flag]
    rfl

end QuitInv

/-- **Each event** keeps the protocol, as long as the queue is not emptied while it is quitting. -/
theorem quit_step {s after : QuitState} {event : Event} (inv : QuitInv s) (kept : KeepsQuit s event)
    (runs : quitExec s event = some after) : QuitInv after := by
  obtain ⟨base, ran, rfl⟩ := Option.map_eq_some_iff.mp runs
  by_cases central : event.Central
  · cases event with
    | postQuit =>
      rw [← Option.some.inj ran]
      exact inv.postQuit
    | peek env args pMsg => exact inv.peek ran
    | empty fuel => exact inv.empty kept ran
    | windows root =>
      rw [← Option.some.inj ran]
      exact inv.ranOn ⟨rfl, rfl⟩
    | _ => exact central.elim
  · have aside := exec_aside central ran
    have nothing : quitAct s.base event = none := by
      cases event <;> first | rfl | exact absurd trivial central
    rw [nothing]
    exact inv.ranOn ⟨aside.quit, aside.loopDepth⟩

/-! ### Runs -/

/-- **The quit protocol** holds in every state of every run that empties the queue only while it is
not quitting. -/
theorem quit_ok_when_kept {s : QuitState} (reached : quitSystem.ReachableBy KeepsQuit s) :
    QuitOk s := by
  refine (reached.invariant QuitInv ?_ ?_).ok
  · rintro ⟨base, acts⟩ ⟨⟨defMsgqueueLen, iBufferLen, buffer, frames, -, rfl⟩, rfl⟩
    refine ⟨?_, ?_⟩
    · show (0 : ℤ) = if Dword.has qsEmpty .quit then 1 else 0
      rw [Dword.has_empty]
      rfl
    · show some false = some (Dword.has qsEmpty .quit)
      rw [Dword.has_empty]
  · rintro s event after - inv kept runs
    exact quit_step inv kept runs

/-- **Emptying a quitting queue** always breaks the protocol: the bit is cleared, the depth is
not. -/
theorem empty_breaks_quit {s after : QuitState} {fuel : ℕ} (ok : QuitOk s)
    (quitting : s.base.world.queue.has .quit = true) (runs : quitExec s (.empty fuel) = some after) :
    ¬ QuitOk after := by
  have deep := ok.flag.mp quitting
  obtain ⟨base, ran, rfl⟩ := Option.map_eq_some_iff.mp runs
  obtain ⟨w, returns, rfl⟩ := Option.map_eq_some_iff.mp ran
  obtain ⟨_, synced, heap, first, -, rfl⟩ := emptyMessageQueue_inv returns
  obtain ⟨_, _, -, rfl⟩ := cancelSync_frame first
  intro broken
  have flag : Dword.has qsEmpty .quit = true := broken.flag.mpr deep
  rw [Dword.has_empty] at flag
  cases flag

theorem quit_blank_init : quitSystem.init ⟨State.blank, []⟩ := ⟨blank_init, rfl⟩

/-- A pass that removes whatever it finds. -/
def removing : Event :=
  .peek ⟨8, 0, 0, 0, 1, false, fun _ lParam => lParam, fun _ => 0⟩ ⟨2, 0, 0, pmRemove⟩ Msg.zero

/-- A request that is reported, and a later one that is pending. -/
theorem quit_ok_when_kept_twice :
    ∃ s, runEvents quitExec ⟨State.blank, []⟩ [.postQuit, removing, .empty 1, .postQuit] = some s ∧
      s.acts = [.accepted, .emptied, .reported, .accepted] ∧ QuitOk s := by
  have start : quitSystem.ReachableBy KeepsQuit ⟨State.blank, []⟩ := .start quit_blank_init
  have posted := start.by_event Event.postQuit trivial rfl
  have removed := posted.by_event removing trivial rfl
  have emptied := removed.by_event (Event.empty 1) rfl rfl
  have again := emptied.by_event Event.postQuit trivial rfl
  exact ⟨_, rfl, rfl, quit_ok_when_kept again⟩

/-- **One request is reported twice**: the queue was emptied while an earlier one was pending. -/
theorem empty_keeps_the_depth :
    ∃ s, quitSystem.Reachable s ∧
      s.acts = [.reported, .reported, .accepted, .emptied, .accepted] ∧ ¬ QuitOk s := by
  have start : quitSystem.Reachable ⟨State.blank, []⟩ := .start quit_blank_init
  have runs : runEvents quitExec ⟨State.blank, []⟩
      [.postQuit, .empty 1, .postQuit, removing, removing] = some _ := rfl
  refine ⟨_, start.run (fun _ _ _ ran => ⟨trivial, ran⟩) runs, rfl, fun ok => ?_⟩
  have balance := ok.owed
  cases balance

end Aple.Message
