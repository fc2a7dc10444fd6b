/-
**What one pass of PeekMessageEx can do.**

Every invariant of the queue follows from one inversion lemma.

* `Tidied` — what falling through stages may change: summary bits of empty containers, the first
  timer slot, the idle counter. Never a list, never the ring.
* `SkipsSync`, `SkipsNotify`, `SkipsPosted` — the head of a flagged container is not wanted.
* `leftover` — the hidden pointer that `*pMsg` still has after the first five stages.
* `PeekEffect` — one constructor for each way a pass ends, with its guards and its effect.
* **`peekPass_effect`** — every pass is one of them.
-/

import Aple.Message.Peek

namespace Aple.Message

open Aple.Lib

/-! ### Falling through -/

/-- The part of a queue that falling through stages may change. -/
structure Tidied (w w' : World) : Prop where
  heap : w'.heap = w.heap
  frames : w'.frames = w.frames
  queue : ∃ dwState slot idle, w'.queue = { w.queue with
    dwState := dwState, firstTimerSlot := slot, idleCounter := idle }
  flags : ∀ flag, w'.queue.has flag = true → w.queue.has flag = true
  sync : w.queue.pFirstSyncMsg ≠ none →
    w'.queue.has .syncMsg = w.queue.has .syncMsg
  notify : w.queue.pFirstNotifyMsg ≠ none →
    w'.queue.has .notifyMsg = w.queue.has .notifyMsg
  posted : w.queue.readpos ≠ w.queue.writepos →
    w'.queue.has .postMsg = w.queue.has .postMsg
  quit : w'.queue.has .quit = w.queue.has .quit

namespace Tidied

variable {w w' w'' : World}

theorem refl (w : World) : Tidied w w :=
  ⟨rfl, rfl, ⟨_, _, _, rfl⟩, fun _ before => before, fun _ => rfl, fun _ => rfl, fun _ => rfl, rfl⟩

theorem trans (first : Tidied w w') (second : Tidied w' w'') : Tidied w w'' := by
  obtain ⟨state, slot, idle, eq⟩ := first.queue
  obtain ⟨state', slot', idle', eq'⟩ := second.queue
  refine ⟨second.heap.trans first.heap, second.frames.trans first.frames,
    ⟨state', slot', idle', by rw [eq', eq]⟩,
    fun flag before => first.flags flag (second.flags flag before), fun some_sync => ?_,
    fun some_notify => ?_, fun some_posted => ?_, second.quit.trans first.quit⟩
  · rw [second.sync (by rw [eq]; exact some_sync), first.sync some_sync]
  · rw [second.notify (by rw [eq]; exact some_notify), first.notify some_notify]
  · rw [second.posted (by rw [eq]; exact some_posted), first.posted some_posted]

/-- A summary bit may be cleared when its container is empty; the quit bit never is. -/
theorem clear (flag : Qs) (notQuit : flag ≠ .quit)
    (sync : flag = .syncMsg → w.queue.pFirstSyncMsg = none)
    (notify : flag = .notifyMsg → w.queue.pFirstNotifyMsg = none)
    (posted : flag = .postMsg → w.queue.readpos = w.queue.writepos) :
    Tidied w { w with queue := w.queue.clearFlag flag } := by
  refine ⟨rfl, rfl, ⟨_, _, _, rfl⟩, fun flag' before => ?_, fun pending => ?_, fun pending => ?_,
    fun pending => ?_, ?_⟩
  · rw [MsgQueue.has_clearFlag, Bool.and_eq_true] at before
    exact before.1
  · have differs : flag ≠ .syncMsg := fun same => pending (sync same)
    simp [differs]
  · have differs : flag ≠ .notifyMsg := fun same => pending (notify same)
    simp [differs]
  · have differs : flag ≠ .postMsg := fun same => pending (posted same)
    simp [differs]
  · simp [notQuit]

theorem slot (slot : ℕ) : Tidied w { w with queue := { w.queue with firstTimerSlot := slot } } :=
  ⟨rfl, rfl, ⟨_, _, _, rfl⟩, fun _ before => before, fun _ => rfl, fun _ => rfl, fun _ => rfl, rfl⟩

theorem idle (count : ℕ) : Tidied w { w with queue := { w.queue with idleCounter := count } } :=
  ⟨rfl, rfl, ⟨_, _, _, rfl⟩, fun _ before => before, fun _ => rfl, fun _ => rfl, fun _ => rfl, rfl⟩

theorem gotRet (env : PeekEnv) (w : World) (pMsg : Msg) :
    Tidied w (gotRet env ⟨w, pMsg⟩).world := by
  unfold Message.gotRet
  split
  · exact idle 0
  · exact refl _

end Tidied

@[simp] theorem gotRet_pMsg (env : PeekEnv) (s : PeekState) : (gotRet env s).pMsg = s.pMsg := by
  unfold gotRet
  split <;> rfl

/-! ### Skipped sources -/

/-- The head of the flagged synchronous messages is not wanted. -/
def SkipsSync (a : PeekArgs) (w : World) : Prop :=
  w.queue.has .syncMsg = true → ∀ first, w.queue.pFirstSyncMsg = some first →
    isMsgWanted a (w.frames first).msg.message = false

/-- The head of the flagged notifications is not wanted. -/
def SkipsNotify (a : PeekArgs) (w : World) : Prop :=
  w.queue.has .notifyMsg = true → ∀ head node, w.queue.pFirstNotifyMsg = some head →
    w.heap.cells head = some node → isMsgWanted a node.msg.message = false

/-- The head of the flagged ring is not wanted. -/
def SkipsPosted (a : PeekArgs) (w : World) : Prop :=
  w.queue.has .postMsg = true → w.queue.readpos ≠ w.queue.writepos →
    isMsgWanted a (w.queue.msg w.queue.readpos).message = false

/-- The hidden pointer after the synchronous messages were looked at. -/
def leftSync (s : PeekState) : Ptr :=
  if s.world.queue.has .syncMsg ∧ s.world.queue.pFirstSyncMsg ≠ none then
    s.world.queue.pFirstSyncMsg
  else s.pMsg.pSyncMsg

/-- The hidden pointer after the notifications were looked at. -/
def leftNotify (s : PeekState) : Ptr :=
  if s.world.queue.has .notifyMsg ∧ s.world.queue.pFirstNotifyMsg ≠ none then none
  else leftSync s

/-- The hidden pointer after the ring was looked at. -/
def leftPosted (s : PeekState) : Ptr :=
  if s.world.queue.has .postMsg ∧ s.world.queue.readpos ≠ s.world.queue.writepos then
    none
  else leftNotify s

/-- The hidden pointer that is left in `*pMsg` when the desktop timer is looked at. -/
def leftover (a : PeekArgs) (s : PeekState) : Ptr :=
  if s.world.queue.has .paint ∧ isMsgWanted a msgPaint then none else leftPosted s

/-! ### The effects -/

/-- A quitting pass only touches the loop depth and the quit bit. -/
theorem peekQuit_frame {a : PeekArgs} {s after : PeekState} {outcome : Outcome}
    (jumps : peekQuit a s = .error (outcome, after)) :
    ∃ state depth, after.world = { s.world with
        queue := { s.world.queue with dwState := state, loopDepth := depth } } ∧
      (∀ flag, flag ≠ .quit → after.world.queue.has flag = s.world.queue.has flag) ∧
      after.pMsg.pSyncMsg = none := by
  by_cases quitting : s.world.queue.has .quit = true
  · simp only [peekQuit, if_pos quitting] at jumps
    obtain ⟨-, rfl⟩ := Prod.mk.inj (Except.error.inj jumps)
    by_cases remove : a.remove = true
    · simp only [if_pos remove]
      split
      · refine ⟨_, _, rfl, fun flag notQuit => ?_, trivial⟩
        show MsgQueue.has (MsgQueue.clearFlag _ .quit) flag = _
        rw [MsgQueue.has_clearFlag, decide_eq_false notQuit.symm, Bool.not_false, Bool.and_true]
        rfl
      · exact ⟨_, _, rfl, fun _ _ => rfl, trivial⟩
    · simp only [if_neg remove]
      exact ⟨_, _, rfl, fun _ _ => rfl, trivial⟩
  · simp only [peekQuit, if_neg quitting] at jumps
    cases jumps

/-- Every way a pass can end. -/
inductive PeekEffect (env : PeekEnv) (a : PeekArgs) (s : PeekState) : Outcome → PeekState → Prop
  | quit (after : PeekState) : peekQuit a s = .error (.quit, after) → PeekEffect env a s .quit after
  | sync (first : Addr) (after : PeekState) :
      s.world.queue.has .quit = false →
      s.world.queue.has .syncMsg = true →
      s.world.queue.pFirstSyncMsg = some first →
      isMsgWanted a (s.world.frames first).msg.message = true →
      Tidied (if a.remove then unlinkFirstSync first s.world else s.world) after.world →
      after.pMsg = { (s.world.frames first).msg with pSyncMsg := some first } →
      PeekEffect env a s (.got (.sync first)) after
  | notify (head : Addr) (node : QMsg) (tidy removed : World) (after : PeekState) :
      s.world.queue.has .quit = false → SkipsSync a s.world →
      s.world.queue.has .notifyMsg = true →
      s.world.queue.pFirstNotifyMsg = some head → s.world.heap.cells head = some node →
      isMsgWanted a node.msg.message = true → Tidied s.world tidy →
      (if a.remove then removeFirstNotify head node tidy = some removed else removed = tidy) →
      Tidied removed after.world → after.pMsg = { node.msg with pSyncMsg := none } →
      PeekEffect env a s (.got .notify) after
  | posted (tidy : World) (after : PeekState) :
      s.world.queue.has .quit = false → SkipsSync a s.world → SkipsNotify a s.world →
      s.world.queue.has .postMsg = true →
      s.world.queue.readpos ≠ s.world.queue.writepos →
      isMsgWanted a (s.world.queue.msg s.world.queue.readpos).message = true →
      Tidied s.world tidy →
      Tidied (if a.remove then { tidy with queue := tidy.queue.readNext } else tidy) after.world →
      after.pMsg = checkCapturedMouseMessage env
        { s.world.queue.msg s.world.queue.readpos with pSyncMsg := none } →
      PeekEffect env a s (.got .posted) after
  | paint (after : PeekState) :
      s.world.queue.has .quit = false → SkipsSync a s.world → SkipsNotify a s.world →
      SkipsPosted a s.world → Tidied s.world after.world → after.pMsg.pSyncMsg = none →
      PeekEffect env a s (.got .paint) after
  | deskTimer (tidy : World) (after : PeekState) :
      s.world.queue.has .quit = false → SkipsSync a s.world → SkipsNotify a s.world →
      SkipsPosted a s.world → env.isDskQueue = true →
      s.world.queue.has .deskTimer = true → Tidied s.world tidy →
      Tidied (if a.remove then { tidy with queue := tidy.queue.clearFlag .deskTimer } else tidy)
        after.world →
      after.pMsg.pSyncMsg = leftover a s → after.pMsg.hwnd = env.hwndDesktop →
      PeekEffect env a s (.got .deskTimer) after
  | timer (outcome : Outcome) (slot : ℕ) (timer : Timer) (tidy : World) (after : PeekState) :
      s.world.queue.has .quit = false → SkipsSync a s.world → SkipsNotify a s.world →
      SkipsPosted a s.world → s.world.queue.timerSlots slot = some timer → Tidied s.world tidy →
      Tidied { tidy with queue := { tidy.queue with
        expiredTimerMask := tidy.queue.expiredTimerMask &&& ~~~BitVec.twoPow 64 slot } }
        after.world →
      (outcome = .callTimer slot timer ∨ outcome = .got .timer ∧ after.pMsg.pSyncMsg = none) →
      PeekEffect env a s outcome after
  | nothing (after : PeekState) :
      s.world.queue.has .quit = false → SkipsSync a s.world → SkipsNotify a s.world →
      SkipsPosted a s.world → Tidied s.world after.world → PeekEffect env a s .nothing after
  | fault (after : PeekState) : SkipsSync a s.world →
      ((∃ head, s.world.queue.pFirstNotifyMsg = some head ∧ s.world.heap.cells head = none) ∨
        SkipsNotify a s.world ∧ SkipsPosted a s.world) →
      PeekEffect env a s .fault after

/-! ### Stage by stage -/

/-- Both ways a stage can end. -/
def Stage.All (falls : PeekState → Prop) (jumps : Outcome → PeekState → Prop) : Stage → Prop
  | .ok s => falls s
  | .error (outcome, s) => jumps outcome s

theorem Stage.All.bind {falls middle : PeekState → Prop} {jumps : Outcome → PeekState → Prop}
    {stage : Stage} {rest : PeekState → Stage} (first : stage.All middle jumps)
    (then' : ∀ s, middle s → (rest s).All falls jumps) :
    Stage.All falls jumps (stage >>= rest) := by
  cases stage with
  | ok s => exact then' s first
  | error jump => exact first

/-- What the earlier stages left: only the bits in `seen` may have changed. -/
structure Fell (s s' : PeekState) (seen : List Qs) (left : Ptr) : Prop where
  tidied : Tidied s.world s'.world
  unseen : ∀ flag, flag ∉ seen →
    s'.world.queue.has flag = s.world.queue.has flag
  pointer : s'.pMsg.pSyncMsg = left

theorem Fell.unchanged {s s' : PeekState} {seen : List Qs} {left : Ptr} (fell : Fell s s' seen left) :
    s'.world.queue.pFirstSyncMsg = s.world.queue.pFirstSyncMsg ∧
      s'.world.queue.pFirstNotifyMsg = s.world.queue.pFirstNotifyMsg ∧
      s'.world.queue.readpos = s.world.queue.readpos ∧
      s'.world.queue.writepos = s.world.queue.writepos ∧
      s'.world.queue.msg = s.world.queue.msg ∧
      s'.world.queue.timerSlots = s.world.queue.timerSlots := by
  obtain ⟨_, _, _, eq⟩ := fell.tidied.queue
  rw [eq]
  exact ⟨rfl, rfl, rfl, rfl, rfl, rfl⟩

variable {env : PeekEnv} {a : PeekArgs} {s : PeekState}

/-- A jump has one of the effects once the code behind its label has run. -/
def Jumps (env : PeekEnv) (a : PeekArgs) (s : PeekState) (outcome : Outcome) (after : PeekState) :
    Prop :=
  PeekEffect env a s outcome (outcome.land env after)

theorem peekQuit_all : (peekQuit a s).All
    (fun s' => s' = s ∧ s.world.queue.has .quit = false) (Jumps env a s) := by
  by_cases quitting : s.world.queue.has .quit = true
  · have jump : ∃ after, peekQuit a s = .error (.quit, after) := by simp [peekQuit, quitting]
    obtain ⟨after, jump⟩ := jump
    rw [jump]
    exact .quit after jump
  · rw [Bool.not_eq_true] at quitting
    simp [peekQuit, quitting, Stage.All]

theorem peekSync_all (running : s.world.queue.has .quit = false) :
    (peekSync a s).All
      (fun s' => SkipsSync a s.world ∧ Fell s s' [.syncMsg] (leftSync s)) (Jumps env a s) := by
  unfold peekSync
  by_cases flagged : s.world.queue.has .syncMsg = true
  · rw [if_pos flagged]
    rcases head : s.world.queue.pFirstSyncMsg with _ | first
    · refine ⟨fun _ other same => absurd (head.symm.trans same) (by simp), ?_, fun flag unseen => ?_, ?_⟩
      · exact Tidied.clear .syncMsg (by decide) (fun _ => head) (fun same => by cases same)
          (fun same => by cases same)
      · have differs : Qs.syncMsg ≠ flag := fun same => unseen (by simp [same])
        simp [PeekState.setQueue, differs]
      · simp [leftSync, head, PeekState.setQueue]
    · by_cases wanted : isMsgWanted a (s.world.frames first).msg.message = true
      · simp only [wanted, if_true]
        show PeekEffect env a s (.got (.sync first)) (gotRet env _)
        exact .sync first _ running flagged head wanted (Tidied.gotRet env _ _) (gotRet_pMsg env _)
      · simp only [wanted]
        refine ⟨fun _ other same => ?_, Tidied.refl _, fun _ _ => rfl, ?_⟩
        · rw [head, Option.some.injEq] at same
          subst same
          simpa using wanted
        · simp [leftSync, flagged, head]
  · rw [if_neg flagged]
    exact ⟨fun before => absurd before flagged, Tidied.refl _, fun _ _ => rfl, by simp [leftSync, flagged]⟩

theorem peekNotify_all {s' : PeekState} (running : s.world.queue.has .quit = false)
    (skips : SkipsSync a s.world) (fell : Fell s s' [.syncMsg] (leftSync s)) :
    (peekNotify a s').All
      (fun s'' => SkipsNotify a s.world ∧ Fell s s'' [.syncMsg, .notifyMsg] (leftNotify s))
      (Jumps env a s) := by
  have sameHead := fell.unchanged.2.1
  have flag := fell.unseen .notifyMsg (by decide)
  unfold peekNotify
  by_cases flagged : s.world.queue.has .notifyMsg = true
  · rw [if_pos (flag.trans flagged)]
    rcases head : s.world.queue.pFirstNotifyMsg with _ | first
    · rw [head] at sameHead
      simp only [sameHead]
      refine ⟨fun _ _ _ atHead => absurd (head.symm.trans atHead) (by simp), ?_,
        fun flag' unseen => ?_, ?_⟩
      · exact fell.tidied.trans (Tidied.clear .notifyMsg (by decide) (fun same => by cases same)
          (fun _ => sameHead) (fun same => by cases same))
      · have differs : Qs.notifyMsg ≠ flag' := fun same => unseen (by simp [same])
        have earlier := fell.unseen flag' (fun member => unseen (by simp_all))
        simp [PeekState.setQueue, differs, earlier]
      · simp [leftNotify, head, PeekState.setQueue, fell.pointer]
    · rw [head] at sameHead
      simp only [sameHead, fell.tidied.heap]
      rcases cell : s.world.heap.cells first with _ | node
      · exact .fault _ skips (.inl ⟨first, head, cell⟩)
      · by_cases wanted : isMsgWanted a node.msg.message = true
        · simp only [wanted, if_true]
          by_cases remove : a.remove = true
          · rw [if_pos remove]
            rcases freed : removeFirstNotify first node s'.world with _ | world
            · simp [removeFirstNotify, QMsgHeap.free, fell.tidied.heap, cell] at freed
            · show PeekEffect env a s (.got .notify) (gotRet env _)
              exact .notify first node s'.world world _ running skips flagged head cell wanted
                fell.tidied (by rw [if_pos remove]; exact freed) (Tidied.gotRet env world _)
                (gotRet_pMsg env _)
          · rw [if_neg remove]
            show PeekEffect env a s (.got .notify) (gotRet env _)
            exact .notify first node s'.world s'.world _ running skips flagged head cell wanted
              fell.tidied (by rw [if_neg remove]) (Tidied.gotRet env s'.world _)
              (gotRet_pMsg env _)
        · simp only [wanted]
          refine ⟨fun _ other other' atHead read => ?_, fell.tidied, fun flag' unseen => ?_, ?_⟩
          · rw [head, Option.some.injEq] at atHead
            subst atHead
            rw [cell, Option.some.injEq] at read
            subst read
            simpa using wanted
          · exact fell.unseen flag' (fun member => unseen (by simp_all))
          · simp [leftNotify, flagged, head]
  · rw [if_neg (flag ▸ flagged)]
    refine ⟨fun before => absurd before flagged, fell.tidied, fun flag' unseen => ?_, ?_⟩
    · exact fell.unseen flag' (fun member => unseen (by simp_all))
    · simp [leftNotify, flagged, fell.pointer]

theorem peekPosted_all {s' : PeekState} (running : s.world.queue.has .quit = false)
    (skipsSync : SkipsSync a s.world) (skipsNotify : SkipsNotify a s.world)
    (fell : Fell s s' [.syncMsg, .notifyMsg] (leftNotify s)) :
    (peekPosted env a s').All
      (fun s'' => SkipsPosted a s.world ∧
        Fell s s'' [.syncMsg, .notifyMsg, .postMsg] (leftPosted s)) (Jumps env a s) := by
  obtain ⟨_, _, sameRead, sameWrite, sameMsg, _⟩ := fell.unchanged
  have sameEntry : s'.world.queue.msg s'.world.queue.readpos =
      s.world.queue.msg s.world.queue.readpos := by rw [sameMsg, sameRead]
  have flag := fell.unseen .postMsg (by decide)
  unfold peekPosted
  by_cases flagged : s.world.queue.has .postMsg = true
  · rw [if_pos (flag.trans flagged)]
    by_cases pending : s.world.queue.readpos ≠ s.world.queue.writepos
    · rw [if_pos (by rw [sameRead, sameWrite]; exact pending)]
      simp only [sameEntry]
      by_cases wanted : isMsgWanted a (s.world.queue.msg s.world.queue.readpos).message = true
      · rw [if_pos wanted]
        show PeekEffect env a s (.got .posted) (gotRet env _)
        refine .posted s'.world _ running skipsSync skipsNotify flagged pending wanted fell.tidied
          ?_ (gotRet_pMsg env _)
        by_cases remove : a.remove = true
        · rw [if_pos remove, if_pos remove]
          exact Tidied.gotRet env _ _
        · rw [if_neg remove, if_neg remove]
          exact Tidied.gotRet env _ _
      · rw [if_neg wanted]
        refine ⟨fun _ _ => by simpa using wanted, fell.tidied, fun flag' unseen => ?_, ?_⟩
        · exact fell.unseen flag' (fun member => unseen (by simp_all))
        · simp [leftPosted, flagged, pending]
    · rw [if_neg (by rw [sameRead, sameWrite]; exact pending)]
      refine ⟨fun _ some_posted => absurd some_posted pending, ?_, fun flag' unseen => ?_, ?_⟩
      · exact fell.tidied.trans (Tidied.clear .postMsg (by decide) (fun same => by cases same)
          (fun same => by cases same) (fun _ => by rw [sameRead, sameWrite]; simpa using pending))
      · have differs : Qs.postMsg ≠ flag' := fun same => unseen (by simp [same])
        have earlier := fell.unseen flag' (fun member => unseen (by simp_all))
        simp [PeekState.setQueue, differs, earlier]
      · simp [leftPosted, pending, PeekState.setQueue, fell.pointer]
  · rw [if_neg (flag ▸ flagged)]
    refine ⟨fun before => absurd before flagged, fell.tidied, fun flag' unseen => ?_, ?_⟩
    · exact fell.unseen flag' (fun member => unseen (by simp_all))
    · simp [leftPosted, flagged, fell.pointer]

/-- What the pass knows once the three containers were skipped. -/
structure Skipped (a : PeekArgs) (s : PeekState) : Prop where
  running : s.world.queue.has .quit = false
  sync : SkipsSync a s.world
  notify : SkipsNotify a s.world
  posted : SkipsPosted a s.world

theorem peekPaint_all {s' : PeekState} (skipped : Skipped a s)
    (fell : Fell s s' [.syncMsg, .notifyMsg, .postMsg] (leftPosted s)) :
    (peekPaint env a s').All
      (Fell s · [.syncMsg, .notifyMsg, .postMsg, .paint] (leftover a s)) (Jumps env a s) := by
  have flag := fell.unseen .paint (by decide)
  unfold peekPaint
  by_cases asked : (s.world.queue.has .paint && isMsgWanted a msgPaint) = true
  · rw [if_pos (by rw [flag]; exact asked)]
    rw [Bool.and_eq_true] at asked
    rcases s'.world.queue.pRootMainWin with _ | root
    · exact .fault _ skipped.sync (.inr ⟨skipped.notify, skipped.posted⟩)
    · by_cases invalid : msgCheckHostedTree env.hwndDesktop root ≠ hwndNull
      · simp only [if_pos invalid]
        show PeekEffect env a s (.got .paint) (gotRet env _)
        exact .paint _ skipped.running skipped.sync skipped.notify skipped.posted
          (fell.tidied.trans (Tidied.gotRet env _ _)) (by rw [gotRet_pMsg])
      · simp only [if_neg invalid]
        refine ⟨?_, fun flag' unseen => ?_, ?_⟩
        · exact fell.tidied.trans (Tidied.clear .paint (by decide) (fun same => by cases same)
            (fun same => by cases same) (fun same => by cases same))
        · have differs : Qs.paint ≠ flag' := fun same => unseen (by simp [same])
          have earlier := fell.unseen flag' (fun member => unseen (by simp_all))
          simp [PeekState.setQueue, differs, earlier]
        · simp [leftover, asked]
  · rw [if_neg (by rw [flag]; exact asked)]
    refine ⟨fell.tidied, fun flag' unseen => ?_, ?_⟩
    · exact fell.unseen flag' (fun member => unseen (by simp_all))
    · rw [fell.pointer, leftover, if_neg]
      simpa using asked

theorem peekDeskTimer_all {s' : PeekState} (skipped : Skipped a s)
    (fell : Fell s s' [.syncMsg, .notifyMsg, .postMsg, .paint] (leftover a s)) :
    (peekDeskTimer env a s').All
      (Fell s · [.syncMsg, .notifyMsg, .postMsg, .paint] (leftover a s)) (Jumps env a s) := by
  have flag := fell.unseen .deskTimer (by decide)
  unfold peekDeskTimer
  by_cases ticked : (env.isDskQueue && s.world.queue.has .deskTimer) = true
  · rw [if_pos (by rw [flag]; exact ticked)]
    rw [Bool.and_eq_true] at ticked
    show PeekEffect env a s (.got .deskTimer) (gotRet env _)
    refine .deskTimer s'.world _ skipped.running skipped.sync skipped.notify skipped.posted
      ticked.1 ticked.2 fell.tidied ?_ ?_ ?_
    · by_cases remove : a.remove = true
      · rw [if_pos remove, if_pos remove]
        exact Tidied.gotRet env _ _
      · rw [if_neg remove, if_neg remove]
        exact Tidied.gotRet env _ _
    · rw [gotRet_pMsg]
      exact fell.pointer
    · rw [gotRet_pMsg]
  · rw [if_neg (by rw [flag]; exact ticked)]
    exact fell

theorem peekTimer_all {s' : PeekState} (skipped : Skipped a s)
    (fell : Fell s s' [.syncMsg, .notifyMsg, .postMsg, .paint] (leftover a s)) :
    (peekTimer env a s').All (fun s'' => Tidied s.world s''.world) (Jumps env a s) := by
  unfold peekTimer
  by_cases expired : s'.world.queue.expiredTimerMask ≠ 0 ∧ isMsgWanted a msgTimer
  · rw [if_pos expired]
    rcases loop (timerSlotTurn env s'.world.queue) (env.defNrTimers + 1)
      s'.world.queue.firstTimerSlot with _ | _ | slot
    · exact .fault _ skipped.sync (.inr ⟨skipped.notify, skipped.posted⟩)
    · exact .fault _ skipped.sync (.inr ⟨skipped.notify, skipped.posted⟩)
    · have advanced := fell.tidied.trans
        (Tidied.slot ((s'.world.queue.firstTimerSlot + 1) % env.defNrTimers))
      rcases installed : s'.world.queue.timerSlots slot with _ | timer
      · simp only [installed]
        exact advanced
      · simp only [installed]
        have original := fell.unchanged.2.2.2.2.2 ▸ installed
        by_cases proc : timer.proc = true
        · rw [if_pos proc]
          show PeekEffect env a s (.callTimer slot timer) _
          exact .timer _ slot timer _ _ skipped.running skipped.sync skipped.notify skipped.posted
            original advanced (Tidied.refl _) (.inl rfl)
        · rw [if_neg proc]
          show PeekEffect env a s (.got .timer) (gotRet env _)
          refine .timer _ slot timer _ _ skipped.running skipped.sync skipped.notify skipped.posted
            original advanced (Tidied.gotRet env _ _) (.inr ⟨rfl, ?_⟩)
          rw [gotRet_pMsg]
  · rw [if_neg expired]
    exact fell.tidied

/-! ### A whole pass -/

theorem peekStages_all : (peekStages env a s).All
    (fun s' => Skipped a s ∧ Tidied s.world s'.world) (Jumps env a s) := by
  refine peekQuit_all.bind fun s₁ ⟨same, running⟩ => ?_
  subst same
  refine (peekSync_all running).bind fun s₂ ⟨skipsSync, fell⟩ => ?_
  refine (peekNotify_all running skipsSync fell).bind fun s₃ ⟨skipsNotify, fell⟩ => ?_
  refine (peekPosted_all running skipsSync skipsNotify fell).bind fun s₄ ⟨skipsPosted, fell⟩ => ?_
  have skipped : Skipped a s₁ := ⟨running, skipsSync, skipsNotify, skipsPosted⟩
  refine (peekPaint_all skipped fell).bind fun s₅ fell => ?_
  refine (peekDeskTimer_all skipped fell).bind fun s₆ fell => ?_
  have last : (peekTimer env a s₆).All (fun s' => Tidied s₁.world s'.world) (Jumps env a s₁) :=
    peekTimer_all skipped fell
  cases result : peekTimer env a s₆ with
  | ok s₇ =>
    rw [result] at last
    exact ⟨skipped, last⟩
  | error jump =>
    rw [result] at last
    exact last

/-- **Every pass has one of the effects.** -/
theorem peekPass_effect {outcome : Outcome} {after : PeekState}
    (pass : peekPass env a s = (outcome, after)) : PeekEffect env a s outcome after := by
  have all : (peekStages env a s).All _ (Jumps env a s) := peekStages_all
  unfold peekPass at pass
  cases result : peekStages env a s with
  | ok s' =>
    rw [result] at pass all
    obtain ⟨rfl, rfl⟩ := Prod.mk.inj pass
    exact .nothing s' all.1.running all.1.sync all.1.notify all.1.posted all.2
  | error jump =>
    obtain ⟨outcome', s'⟩ := jump
    rw [result] at pass all
    obtain ⟨rfl, rfl⟩ := Prod.mk.inj pass
    exact all

end Aple.Message
