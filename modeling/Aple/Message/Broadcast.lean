/-
**Broadcasts to the windows of a thread.**

* `travelAllHosted` — the recursion over the hosting tree; `HostWin.windows` is the order it visits
  the windows in, and `travelAllHosted_eq` says so.
* `Broadcast` — the queues of the windows and the one message that all the posts share: its `time`
  is written by every post, and counts the windows.
* `mgBroadcastMessage`, `broadcastMessageInThisThread`, `handleIdleMessage`.
* `myTravelCb_spec` — what serving one window does.
* **`broadcast_covers`** — a message that is not merged reaches the first windows in that order, as
  many as there are free places.
-/

import Aple.Message.Coalescing

namespace Aple.Message

open Aple.Lib

/-! ### The traversal -/

def HostWin.hwnd : HostWin → Hwnd
  | node win _ => win.hwnd

section Travel

variable {σ : Type} (cb : Hwnd → σ → Option σ)

mutual

/-- `travel_all_hosted`. -/
def travelAllHosted : HostWin → σ → Option σ
  | .node _ hosted, s => travelHosted hosted s

/-- The loop over `pWin->pFirstHosted`. -/
def travelHosted : List HostWin → σ → Option σ
  | [], s => some s
  | pNext :: next, s => ((travelAllHosted pNext s).bind (cb pNext.hwnd)).bind (travelHosted next)

end

end Travel

mutual

/-- The windows of a hosting tree: the hosted trees from left to right, then the window itself. -/
def HostWin.windows : HostWin → List Hwnd
  | .node win hosted => hostedWindows hosted ++ [win.hwnd]

def hostedWindows : List HostWin → List Hwnd
  | [] => []
  | pHosted :: next => pHosted.windows ++ hostedWindows next

end

/-- Serve windows one after the other. -/
def serveAll {σ : Type} (cb : Hwnd → σ → Option σ) (windows : List Hwnd) (s : σ) : Option σ :=
  windows.foldlM (fun s hwnd => cb hwnd s) s

section Travel

variable {σ : Type} {cb : Hwnd → σ → Option σ}

theorem serveAll_append (first second : List Hwnd) (s : σ) :
    serveAll cb (first ++ second) s = (serveAll cb first s).bind (serveAll cb second) :=
  List.foldlM_append ..

@[simp] theorem serveAll_cons (hwnd : Hwnd) (rest : List Hwnd) (s : σ) :
    serveAll cb (hwnd :: rest) s = (cb hwnd s).bind (serveAll cb rest) :=
  List.foldlM_cons ..

@[simp] theorem serveAll_nil (s : σ) : serveAll cb [] s = some s := rfl

mutual

/-- **The traversal visits the windows of the tree**, the root last. -/
theorem travelAllHosted_eq (tree : HostWin) (s : σ) :
    (travelAllHosted cb tree s).bind (cb tree.hwnd) = serveAll cb tree.windows s := by
  match tree with
  | .node win hosted =>
    rw [travelAllHosted, travelHosted_eq hosted s, HostWin.windows, serveAll_append]
    refine Option.bind_congr fun after _ => ?_
    rw [serveAll_cons]
    exact (Option.bind_fun_some _).symm

theorem travelHosted_eq (hosted : List HostWin) (s : σ) :
    travelHosted cb hosted s = serveAll cb (hostedWindows hosted) s := by
  match hosted with
  | [] => rfl
  | pNext :: next =>
    rw [travelHosted, travelAllHosted_eq pNext s, hostedWindows, serveAll_append]
    exact Option.bind_congr fun after _ => travelHosted_eq next after

end

end Travel

/-! ### The functions -/

/-- The queues, the message that is passed through all the posts, how often a post read the tick
counter, and the windows for which `kernel_QueueMessage` returned `TRUE`. -/
structure Broadcast (Queue : Type) where
  queue : Queue → MsgQueue
  msg : Msg
  reads : ℕ
  posted : List Hwnd

/-- The queue of each window, and the values of `__mg_tick_counter`, read by read. -/
structure BroadcastEnv (Queue : Type) where
  pMsgQueue : Hwnd → Option Queue
  tick : ℕ → Dword

section Functions

variable {Queue : Type} [DecidableEq Queue] (env : BroadcastEnv Queue) (fuel : ℕ)

/-- `kernel_QueueMessage (win->pMsgQueue, msg)`. A null queue is refused before the time is set. -/
def Broadcast.queueMessage (s : Broadcast Queue) : Option Queue → Option (Bool × Broadcast Queue)
  | none => some (false, s)
  | some id =>
    (kernelQueueMessage fuel (env.tick s.reads) s.msg (s.queue id)).map fun (done, q) =>
      (done, { s with
        queue := Function.update s.queue id q
        msg := { s.msg with time := env.tick s.reads }
        reads := s.reads + 1 })

/-- `_my_travel_cb`. -/
def myTravelCb (hwnd : Hwnd) (s : Broadcast Queue) : Option (Broadcast Queue) :=
  let s := { s with msg := { s.msg with hwnd := hwnd } }
  (s.queueMessage env fuel (env.pMsgQueue hwnd)).map fun (done, s) =>
    if done then
      { s with msg := { s.msg with time := s.msg.time + 1 }, posted := s.posted ++ [hwnd] }
    else s

/-- `(int) msg->time`. -/
def Broadcast.count (s : Broadcast Queue) : ℤ := (s.msg.time.setWidth 32).toInt

/-- `__mg_broadcast_message`. -/
def mgBroadcastMessage (msgQueue : Queue) (queue : Queue → MsgQueue) (msg : Msg) :
    Option (ℤ × Broadcast Queue) :=
  let s : Broadcast Queue := ⟨queue, { msg with time := 0 }, 0, []⟩
  match (queue msgQueue).pRootMainWin with
  | none => some (s.count, s)
  | some win =>
    ((travelAllHosted (myTravelCb env fuel) win s).bind (myTravelCb env fuel win.hwnd)).map
      fun s => (s.count, s)

/-- `BroadcastMessageInThisThread`, where `thisThread` is what `pthread_getspecific` returns. -/
def broadcastMessageInThisThread (thisThread : Option Queue) (queue : Queue → MsgQueue) (nMsg : MsgId)
    (wParam : WParam) (lParam : LParam) : Option (ℤ × Broadcast Queue) :=
  match thisThread with
  | none => some (-1, ⟨queue, ⟨hwndNull, nMsg, wParam, lParam, 0, none⟩, 0, []⟩)
  | some id => mgBroadcastMessage env fuel id queue ⟨hwndNull, nMsg, wParam, lParam, 0, none⟩

/-- `handle_idle_message`; `now` is the value of the tick counter put into the message. -/
def handleIdleMessage (maxIdleCounter : ℕ) (now : Dword) (msgQueue : Queue)
    (queue : Queue → MsgQueue) : Option (ℤ × Broadcast Queue) :=
  let setIdle (queue : Queue → MsgQueue) (count : ℕ) :=
    Function.update queue msgQueue { queue msgQueue with idleCounter := count }
  let msg : Msg := ⟨hwndNull, msgIdle, now, 0, 0, none⟩
  let counted := setIdle queue ((queue msgQueue).idleCounter + 1)
  if (counted msgQueue).idleCounter ≥ maxIdleCounter then
    (mgBroadcastMessage env fuel msgQueue counted msg).map fun (n, s) =>
      (n, { s with queue := setIdle s.queue 0 })
  else some (0, ⟨counted, msg, 0, []⟩)

end Functions

/-! ### Posting to one window -/

/-- The free places of the ring. -/
def MsgQueue.room (q : MsgQueue) : ℕ := q.len - 1 - (pending q).length

/-- An entry that the message is merged with is pending. -/
def Merges (msg : Msg) (q : MsgQueue) : Prop :=
  ∃ key, coalesceKey msg = some key ∧ key ∈ (pending q).filterMap coalesceKey

theorem not_merges_of_plain {msg : Msg} (q : MsgQueue) (noMouse : isMouseMoveClass msg.message = false)
    (noTimeout : isTimeoutClass msg.message = false) : ¬ Merges msg q := by
  rintro ⟨key, has, -⟩
  rw [coalesceKey, noMouse, noTimeout] at has
  cases has

section Posts

variable {msg : Msg} {q : MsgQueue} {r : Bool × MsgQueue}

/-- A message that is merged is posted, and no key comes or goes. -/
theorem Posts.merged (posts : Posts msg q r) (merges : Merges msg q) :
    r.1 = true ∧ (pending r.2).filterMap coalesceKey = (pending q).filterMap coalesceKey ∧
      (pending r.2).length = (pending q).length := by
  obtain ⟨key, has, listed⟩ := merges
  obtain ⟨entry, member, same⟩ := List.mem_filterMap.mp listed
  obtain ⟨done, q'⟩ := r
  have list := posts.list
  simp only at list ⊢
  generalize pending q' = after at list
  generalize pending q = entries at list member
  cases list with
  | appended noMouse noTimeout | refused noMouse noTimeout =>
    exact absurd same (key_ne_of_scans noMouse noTimeout has member)
  | mergedMouse before behind entry mouse split hit =>
    refine ⟨rfl, ?_, by simp [split]⟩
    rw [split, List.filterMap_append, List.filterMap_append, List.filterMap_cons, List.filterMap_cons]
    rfl
  | mergedTimeout before behind entry _ timeout split hit =>
    have entryTimeout : isTimeoutClass entry.message = true := by
      rw [(sameTimeoutKey_iff.mp hit).1]
      exact timeout
    refine ⟨rfl, ?_, by simp [split]⟩
    have sameKey : coalesceKey { entry with
        wParam := msg.wParam, lParam := msg.lParam, time := msg.time } = coalesceKey entry := by
      rw [coalesceKey_timeout entryTimeout]
      exact coalesceKey_timeout entryTimeout
    rw [split, List.filterMap_append, List.filterMap_append, List.filterMap_cons, List.filterMap_cons,
      sameKey]

/-- A message that is not merged is appended while there is room, and refused after that. -/
theorem Posts.unmerged (posts : Posts msg q r) (new : ¬ Merges msg q) :
    0 < q.room ∧ r.1 = true ∧ pending r.2 = pending q ++ [msg] ∨ q.room = 0 ∧ r = (false, q) := by
  obtain ⟨done, q'⟩ := r
  have list := posts.list
  have refused := posts.refused
  have splits : ∀ {before behind : List Msg} {entry : Msg}, pending q = before ++ entry :: behind →
      coalesceKey msg ≠ none → coalesceKey entry ≠ coalesceKey msg := by
    intro before behind entry split keyed same
    obtain ⟨key, has⟩ := Option.ne_none_iff_exists'.mp keyed
    exact new ⟨key, has, List.mem_filterMap.mpr ⟨entry, by simp [split], same.trans has⟩⟩
  simp only at list refused ⊢
  unfold MsgQueue.room
  generalize listed : pending q' = after at list
  cases list with
  | appended _ _ free =>
    exact .inl ⟨Nat.sub_pos_of_lt free, rfl, rfl⟩
  | refused _ _ full =>
    exact .inr ⟨Nat.sub_eq_zero_of_le (Nat.le_of_not_lt full), by rw [refused rfl]⟩
  | mergedMouse before behind entry mouse split hit =>
    exact absurd ((sameMouseKey_iff_key mouse).mp hit)
      (splits split (by rw [coalesceKey_mouse mouse]; exact Option.some_ne_none _))
  | mergedTimeout before behind entry _ timeout split hit =>
    exact absurd ((sameTimeoutKey_iff_key timeout).mp hit)
      (splits split (by rw [coalesceKey_timeout timeout]; exact Option.some_ne_none _))

end Posts

theorem kernelQueueMessage_len {fuel : ℕ} {tick : Dword} {msg : Msg} {q : MsgQueue}
    {r : Bool × MsgQueue} (returns : kernelQueueMessage fuel tick msg q = some r) :
    r.2.len = q.len := by
  cases kernelQueueMessage_frame returns <;> rfl

section Serving

variable {Queue : Type} [DecidableEq Queue] {env : BroadcastEnv Queue} {fuel : ℕ}
  {queue : Queue → MsgQueue} {msgQueue : Queue} {msg : Msg} {root : HostWin}

/-- A broadcast serves the windows under the root of the queue, one after the other. -/
theorem mgBroadcastMessage_eq (atRoot : (queue msgQueue).pRootMainWin = some root) :
    mgBroadcastMessage env fuel msgQueue queue msg =
      (serveAll (myTravelCb env fuel) root.windows ⟨queue, { msg with time := 0 }, 0, []⟩).map
        fun s => (s.count, s) := by
  rw [← travelAllHosted_eq]
  simp only [mgBroadcastMessage, atRoot]

/-- What serving a window does. -/
inductive Serves (env : BroadcastEnv Queue) (hwnd : Hwnd) (s : Broadcast Queue) : Broadcast Queue → Prop
  | skipped : env.pMsgQueue hwnd = none → Serves env hwnd s { s with msg := { s.msg with hwnd := hwnd } }
  | posted (id : Queue) (r : Bool × MsgQueue) : env.pMsgQueue hwnd = some id →
      Posts { s.msg with hwnd := hwnd, time := env.tick s.reads } (s.queue id) r →
      r.2.len = (s.queue id).len →
      Serves env hwnd s
        { queue := Function.update s.queue id r.2
          msg := { s.msg with
            hwnd := hwnd, time := env.tick s.reads + if r.1 then 1 else 0 }
          reads := s.reads + 1
          posted := if r.1 then s.posted ++ [hwnd] else s.posted }

variable {hwnd : Hwnd} {s after : Broadcast Queue}

/-- **Serving one window.** -/
theorem myTravelCb_spec (ok : ∀ id, env.pMsgQueue hwnd = some id → RingOk (s.queue id))
    (returns : myTravelCb env fuel hwnd s = some after) : Serves env hwnd s after := by
  cases mine : env.pMsgQueue hwnd with
  | none =>
    simp only [myTravelCb, mine, Broadcast.queueMessage, Option.map_some, Bool.false_eq_true,
      if_false, Option.some.injEq] at returns
    rw [← returns]
    exact .skipped mine
  | some id =>
    simp only [myTravelCb, mine, Broadcast.queueMessage, Option.map_map] at returns
    obtain ⟨⟨done, q⟩, posts, rfl⟩ := Option.map_eq_some_iff.mp returns
    have spec := (kernelQueueMessage_spec (ok id mine) _ _).2 _ _ posts
    have served := Serves.posted id _ mine spec (kernelQueueMessage_len posts)
    cases done with
    | false => simpa using served
    | true => simpa using served

/-- A window is served when the fuel suffices for the ring of its queue. -/
theorem myTravelCb_returns
    (enough : ∀ id, env.pMsgQueue hwnd = some id →
      ∃ r, kernelQueueMessage fuel (env.tick s.reads) { s.msg with hwnd := hwnd } (s.queue id) = some r) :
    ∃ after, myTravelCb env fuel hwnd s = some after := by
  cases mine : env.pMsgQueue hwnd with
  | none => exact ⟨_, by simp only [myTravelCb, mine, Broadcast.queueMessage, Option.map_some]; rfl⟩
  | some id =>
    obtain ⟨r, returns⟩ := enough id mine
    simp only [myTravelCb, mine, Broadcast.queueMessage, returns, Option.map_some]
    exact ⟨_, rfl⟩

/-! ### Coverage -/

/-- The copies for some windows, each with the time of its own post. -/
def copies (tick : ℕ → Dword) (msg : Msg) (windows : List Hwnd) (reads : ℕ) : List Msg :=
  (windows.zipIdx reads).map fun window => { msg with hwnd := window.1, time := tick window.2 }

/-- A message without a scan needs no fuel. -/
theorem kernelQueueMessage_plain {tick : Dword} {q : MsgQueue}
    (noMouse : isMouseMoveClass msg.message = false) (noTimeout : isTimeoutClass msg.message = false) :
    kernelQueueMessage fuel tick msg q = some (writePosted { msg with time := tick } q) := by
  simp only [kernelQueueMessage, noMouse, noTimeout, Bool.false_eq_true, if_false]

/-- What a broadcast does to the queue of its windows, and to the others. -/
structure Covers (env : BroadcastEnv Queue) (windows : List Hwnd) (target : Queue)
    (s after : Broadcast Queue) : Prop where
  /-- The first windows get their copies, as many as there are free places. -/
  entries : pending (after.queue target) = pending (s.queue target) ++
    copies env.tick s.msg (windows.take (s.queue target).room) s.reads
  posted : after.posted = s.posted ++ windows.take (s.queue target).room
  others : ∀ id, id ≠ target → after.queue id = s.queue id
  inside : RingOk (after.queue target)

/-- **Windows of one queue, served in order.** -/
theorem serveAll_covers {target : Queue} {windows : List Hwnd}
    (same : ∀ hwnd ∈ windows, env.pMsgQueue hwnd = some target) (ok : RingOk (s.queue target))
    (noMouse : isMouseMoveClass s.msg.message = false)
    (noTimeout : isTimeoutClass s.msg.message = false) :
    ∃ after, serveAll (myTravelCb env fuel) windows s = some after ∧
      Covers env windows target s after := by
  induction windows generalizing s with
  | nil =>
    refine ⟨s, rfl, ?_, ?_, fun _ _ => rfl, ok⟩
    · rw [List.take_nil]
      exact (List.append_nil _).symm
    · rw [List.take_nil, List.append_nil]
  | cons hwnd rest ih =>
    have mine := same hwnd List.mem_cons_self
    obtain ⟨middle, served⟩ : ∃ middle, myTravelCb env fuel hwnd s = some middle :=
      myTravelCb_returns fun id _ => ⟨_, kernelQueueMessage_plain noMouse noTimeout⟩
    rw [serveAll_cons, served]
    have spec := myTravelCb_spec (fun id toId => by
      rw [mine] at toId
      exact Option.some.inj toId ▸ ok) served
    have keeps : RingOk (middle.queue target) ∧ middle.msg.message = s.msg.message := by
      cases spec with
      | skipped => exact ⟨ok, rfl⟩
      | posted id r toId posts =>
        obtain rfl := Option.some.inj (mine.symm.trans toId)
        refine ⟨?_, rfl⟩
        show RingOk (Function.update s.queue target r.2 target)
        rw [Function.update_self]
        exact posts.inside
    obtain ⟨after, runs, covers⟩ := ih (fun other member => same other (List.mem_cons_of_mem _ member))
      keeps.1 (by rw [keeps.2]; exact noMouse) (by rw [keeps.2]; exact noTimeout)
    refine ⟨after, runs, ?_⟩
    cases spec with
    | skipped missing =>
      rw [mine] at missing
      cases missing
    | posted id r toId posts len =>
      obtain rfl := Option.some.inj (mine.symm.trans toId)
      have entries := covers.entries
      have posted := covers.posted
      simp only [Function.update_self] at entries posted
      have others : ∀ id, id ≠ target → after.queue id = s.queue id := fun id differs =>
        (covers.others id differs).trans (Function.update_of_ne differs ..)
      rcases posts.unmerged (not_merges_of_plain _ noMouse noTimeout) with
        ⟨free, done, appended⟩ | ⟨full, refused⟩
      · -- one more entry, and one place less
        have fewer : (s.queue target).room = r.2.room + 1 := by
          unfold MsgQueue.room at free ⊢
          rw [appended, len, List.length_append, List.length_singleton]
          omega
        refine ⟨?_, ?_, others, covers.inside⟩
        · rw [entries, appended, fewer, List.take_succ_cons, List.append_assoc]
          rfl
        · rw [posted, done, fewer, List.take_succ_cons, if_pos rfl, List.append_assoc]
          rfl
      · have kept : r.2 = s.queue target := by rw [refused]
        refine ⟨?_, ?_, others, covers.inside⟩
        · rw [entries, kept, full]
          simp [copies]
        · rw [posted, kept, full, refused]
          simp

/-- **A broadcast message reaches the first windows**, hosted ones before their hosts, as many as
there are free places, and nothing else changes in the ring. -/
theorem broadcast_covers {target : Queue} (atRoot : (queue msgQueue).pRootMainWin = some root)
    (same : ∀ hwnd ∈ root.windows, env.pMsgQueue hwnd = some target) (ok : RingOk (queue target))
    (noMouse : isMouseMoveClass msg.message = false) (noTimeout : isTimeoutClass msg.message = false)
    (fuel : ℕ) :
    ∃ count after, mgBroadcastMessage env fuel msgQueue queue msg = some (count, after) ∧
      pending (after.queue target) = pending (queue target) ++
        copies env.tick msg (root.windows.take (queue target).room) 0 ∧
      (copies env.tick msg (root.windows.take (queue target).room) 0).length =
        min root.windows.length (queue target).room ∧
      after.posted = root.windows.take (queue target).room ∧
      ∀ id, id ≠ target → after.queue id = queue id := by
  obtain ⟨after, runs, covers⟩ : ∃ after, serveAll (myTravelCb env fuel) root.windows
      ⟨queue, { msg with time := 0 }, 0, []⟩ = some after ∧ Covers env root.windows target
        ⟨queue, { msg with time := 0 }, 0, []⟩ after :=
    serveAll_covers same ok noMouse noTimeout
  refine ⟨after.count, after, ?_, covers.entries, ?_, covers.posted, covers.others⟩
  · rw [mgBroadcastMessage_eq atRoot, runs]
    rfl
  · rw [copies, List.length_map, List.length_zipIdx, List.length_take, Nat.min_comm]

end Serving

/-- A main window without an invalid region. -/
def plainWin (hwnd : Hwnd) : PaintWin := .node hwnd typeMainWin false []

/-- The root hosts windows 2 and 4, and window 2 hosts window 3. -/
def fourWindows : HostWin :=
  .node (plainWin 1) [.node (plainWin 2) [.node (plainWin 3) []], .node (plainWin 4) []]

/-- A queue with three free places, which all windows use. -/
def sharedQueue (root : HostWin) : Unit → MsgQueue := fun _ =>
  { State.blank.world.queue with pRootMainWin := some root }

/-- The tick counter does not move. -/
def sharedEnv (tick : Dword) : BroadcastEnv Unit := ⟨fun _ => some (), fun _ => tick⟩

theorem broadcast_covers_four : ∃ count after,
    mgBroadcastMessage (sharedEnv 5) 0 () (sharedQueue fourWindows) ⟨0, msgNotification, 7, 8, 0, none⟩ =
      some (count, after) ∧
    pending (after.queue ()) = [⟨3, msgNotification, 7, 8, 5, none⟩, ⟨2, msgNotification, 7, 8, 5, none⟩,
      ⟨4, msgNotification, 7, 8, 5, none⟩] ∧ after.posted = [3, 2, 4] := by
  obtain ⟨count, after, returns, entries, -, posted, -⟩ :=
    @broadcast_covers Unit _ (sharedEnv 5) (sharedQueue fourWindows) ()
      ⟨0, msgNotification, 7, 8, 0, none⟩ fourWindows () rfl (fun _ _ => rfl)
      ⟨by decide, by decide⟩ (by decide) (by decide) 0
  exact ⟨count, after, returns, entries.trans (by decide), posted.trans (by decide)⟩

end Aple.Message
